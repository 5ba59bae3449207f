import Fountainer.App.Admin
import Fountainer.Proto.Binding
import Fountainer.System.Conditions
import Fountainer.System.Chain

/-!
# Integral floats under a signature

What a request to the admin API puts under the body hash, and what the firmware prints of it.
-/

namespace Fountainer

/-- A received frame as the firmware prints it again: integral numbers without a fraction. -/
def reprint (frame : Dict) : Dict := Json.wholeFields frame

/-- The signed body holds no integral float, it is the requested content up to integral floats, and
the firmware hashes the same bytes. -/
structure Normalised (requested frame : Dict) : Prop where
  noIntegral : (Json.obj (bodyFields frame)).noIntegral = true
  content : (Json.obj (bodyFields frame)).whole = (Json.obj requested).whole
  bytes : canonicalBody (reprint frame) = canonicalBody frame

theorem bodyFields_reprint (frame : Dict) :
    bodyFields (reprint frame) = Json.wholeFields (bodyFields frame) := by
  simp only [bodyFields, reprint, Json.wholeFields_eq, List.filter_map]
  rfl

theorem normalised_iff {requested frame : Dict} :
    Normalised requested frame ↔ bodyFields frame = Json.wholeFields requested := by
  constructor
  · intro h
    have hcontent := h.content
    rw [Json.whole_of_noIntegral h.noIntegral] at hcontent
    exact Json.obj.inj hcontent
  · intro h
    have hobj : Json.obj (bodyFields frame) = (Json.obj requested).whole := by rw [h]; rfl
    have hno : (Json.obj (bodyFields frame)).noIntegral = true := hobj ▸ Json.noIntegral_whole _
    have hwhole := Json.whole_of_noIntegral hno
    refine ⟨hno, hwhole.trans hobj, ?_⟩
    have hsame : Json.obj (bodyFields (reprint frame)) = .obj (bodyFields frame) := by
      rw [bodyFields_reprint]
      exact hwhole
    exact congrArg (fun x : Json => Str.encode x.dumps) hsame

instance (requested frame : Dict) : Decidable (Normalised requested frame) :=
  decidable_of_iff _ normalised_iff.symm

/-! ## The body of a frame -/

/-- The keys of a body are distinct and name no envelope field. -/
structure Call.Fields (call : Call) : Prop where
  clean : call.CleanBody
  nodup : (call.body.map Prod.fst).Nodup

theorem buildMessage_body {name : Str} {body msg : Dict} {msgId : Option Str} {irt : Json} {now : Clock}
    (h : buildMessage name body none msgId irt now = .ok msg)
    (hclean : ∀ k ∈ body.map Prod.fst, k ∉ envelopeFields) (hnodup : (body.map Prod.fst).Nodup) :
    bodyFields msg = body := by
  have hbody : body.filter (fun kv => decide (kv.1 ∉ envelopeFields)) = body :=
    List.filter_eq_self.mpr fun kv hkv => by simpa using hclean kv.1 (List.mem_map_of_mem hkv)
  have hupdate : ∀ (env : Dict) (keys : List Str), env.map Prod.fst = keys →
      (keys.all fun k => decide (k ∈ envelopeFields)) = true → keys.Nodup →
        bodyFields (env.update body) = body := by
    rintro env keys rfl hkeys hnod
    have henv : ∀ k ∈ env.map Prod.fst, k ∈ envelopeFields := by simpa using hkeys
    have henvelope : env.filter (fun kv => decide (kv.1 ∉ envelopeFields)) = [] :=
      List.filter_eq_nil_iff.mpr fun kv hkv => by simpa using henv kv.1 (List.mem_map_of_mem hkv)
    rw [Dict.update_eq_append, bodyFields, List.filter_append, henvelope, hbody, List.nil_append]
    rw [List.map_append, List.nodup_append]
    refine ⟨hnod, hnodup, fun k hk l hl heq => ?_⟩
    exact hclean l hl (heq ▸ henv k hk)
  unfold buildMessage at h
  split at h
  · cases h
  · cases h
    cases msgId with
    | none =>
        by_cases hirt : irt = .null
        · simp only [hirt, if_true]
          exact hupdate _ [py "v", py "type", py "ts"] rfl (by decide) (by decide)
        · simp only [hirt, if_false]
          exact hupdate _ [py "v", py "type", py "ts", py "in_reply_to"] rfl (by decide) (by decide)
    | some i =>
        by_cases hirt : irt = .null
        · simp only [hirt, if_true]
          exact hupdate _ [py "v", py "type", py "ts", py "msg_id"] rfl (by decide) (by decide)
        · simp only [hirt, if_false]
          exact hupdate _ [py "v", py "type", py "ts", py "msg_id", py "in_reply_to"] rfl (by decide)
            (by decide)

theorem DeviceSession.Framed.bodyFields {s s' : DeviceSession} {name : Str} {msg frame : Dict}
    (h : DeviceSession.Framed s name msg s' frame) : bodyFields frame = bodyFields msg := by
  cases h with
  | plain => rfl
  | signed _ hsign =>
      obtain ⟨x, -, h⟩ := ok_of_bind hsign
      cases h
      exact filter_setKey (p := fun k => decide (k ∉ envelopeFields)) (by decide)

theorem Link.start_bodyFields {l : Link} {now : Clock} {call : Call} {frame : Dict} (hcall : call.Fields)
    (h : frame ∈ (l.start now call).1.sent.drop l.sent.length) : bodyFields frame = call.body := by
  have hs := Link.start_started l now call
  generalize l.start now call = out at h hs
  obtain ⟨l', r⟩ := out
  cases hs with
  | failed => simp at h
  | send hmsg hframe =>
      simp only [List.drop_left, List.mem_singleton] at h
      rw [h, hframe.bodyFields]
      exact buildMessage_body hmsg hcall.clean hcall.nodup
  | request hid hmsg hframe =>
      simp only [List.drop_left, List.mem_singleton] at h
      rw [h, hframe.bodyFields]
      exact buildMessage_body hmsg hcall.clean hcall.nodup

/-! ## The admin calls -/

theorem AdminApi.accept_fields {a : AdminApi} {data : Dict} {call : Call}
    (h : accept data a = .ok (some call)) : call.Fields := by
  have hkeys : bodyKeys.all (fun ks => decide (ks.Nodup ∧ ∀ k ∈ ks, k ∉ envelopeFields)) = true := by
    decide
  have hbody := of_decide_eq_true (List.all_eq_true.mp hkeys _ (accept_keys h))
  exact ⟨hbody.2, hbody.1⟩

/-- In every state, what an accepted request hands to a connection is normalised exactly when the
request is regular. -/
theorem admin_normalised_iff (cfg : Config) (s : State) (a : AdminApi) (data : Json) (d : Str)
    (call : Call) (h : a.handle data = .ok (some (.str d, call))) :
    ∃ kvs, data = .obj kvs ∧ ∀ c x x', s.conns c = some x →
      (s.step cfg (.api d call)).conns c = some x' →
        ∀ frame ∈ x'.link.sent.drop x.link.sent.length,
          (Normalised (AdminApi.requested kvs a) frame ↔ AdminApi.regular kvs a = true) := by
  obtain ⟨kvs, rfl, haccept⟩ := AdminApi.handle_ok h
  refine ⟨kvs, rfl, fun c x x' hx hx' frame hframe => ?_⟩
  have hsent : frame ∈ (x.link.start s.now call).1.sent.drop x.link.sent.length := by
    have hdrop : x.link.sent.drop x.link.sent.length = [] := List.drop_length
    simp only [State.step] at hx'
    split at hx'
    · rename_i c' hc'
      by_cases hcc : c = c'
      · subst hcc
        rw [State.startOn_eq hx] at hx'
        simp only [State.setConn, Function.update_self, Option.some.injEq] at hx'
        subst hx'
        exact hframe
      · -- the call goes to another connection
        have hother : (s.startOn c' call).1.conns c = s.conns c := by
          unfold State.startOn
          split
          · rfl
          · exact Function.update_of_ne hcc _ _
        rw [hother, hx] at hx'
        cases hx'
        rw [hdrop] at hframe
        cases hframe
    · rw [hx] at hx'
      cases hx'
      rw [hdrop] at hframe
      cases hframe
  rw [normalised_iff, Link.start_bodyFields (AdminApi.accept_fields haccept) hsent]
  exact AdminApi.body_iff haccept

def sampleDuration : Json :=
  .obj [(py "device_id", .str (py "fon-1")), (py "command", .str (py "turn_on_duration")),
    (py "duration_steps", .int 10)]

theorem admin_normalised_iff_sample :
    AdminApi.command.handle sampleDuration = .ok (some (.str (py "fon-1"),
      commandCall (.str (py "turn_on_duration")) [(py "duration_steps", .int 10)])) ∧
    ∃ kvs, sampleDuration = .obj kvs ∧ ∀ c x x',
      (State.after sampleConfig 0 (sampleHandshake 0 [7] "n")).conns c = some x →
      ((State.after sampleConfig 0 (sampleHandshake 0 [7] "n")).step sampleConfig
        (.api (py "fon-1") (commandCall (.str (py "turn_on_duration"))
          [(py "duration_steps", .int 10)]))).conns c = some x' →
        ∀ frame ∈ x'.link.sent.drop x.link.sent.length,
          (Normalised (AdminApi.requested kvs .command) frame ↔
            AdminApi.regular kvs .command = true) :=
  ⟨rfl, admin_normalised_iff sampleConfig (State.after sampleConfig 0 (sampleHandshake 0 [7] "n"))
    .command sampleDuration (py "fon-1") _ rfl⟩

def nestedWrite : Dict :=
  [(py "device_id", .str (py "fon-1")), (py "dp", .obj [(py "a", .arr [.float (.finite false 5 1)])])]

def floatCancel : Dict :=
  [(py "device_id", .str (py "fon-1")), (py "reason", .float (.finite false 5 1))]

/-- A nested `10.0` in a `dp` and a `10.0` as a reason are signed and sent as they are. -/
theorem admin_sends_integral_float :
    (∃ call, AdminApi.dpWrite.handle (.obj nestedWrite) = .ok (some (.str (py "fon-1"), call)) ∧
      ∃ x ∈ (State.after sampleConfig 0 (sampleHandshake 0 [7] "n" ++ [.api (py "fon-1") call])).conns 0,
        ∃ frame ∈ x.link.sent, bodyFields frame = call.body ∧
          ¬Normalised (AdminApi.requested nestedWrite .dpWrite) frame) ∧
    ∃ call, AdminApi.otaCancel.handle (.obj floatCancel) = .ok (some (.str (py "fon-1"), call)) ∧
      ∃ x ∈ (State.after sampleConfig 0 (sampleHandshake 0 [7] "n" ++ [.api (py "fon-1") call])).conns 0,
        ∃ frame ∈ x.link.sent, bodyFields frame = call.body ∧
          ¬Normalised (AdminApi.requested floatCancel .otaCancel) frame :=
  ⟨⟨_, rfl, by decide +kernel⟩, ⟨_, rfl, by decide +kernel⟩⟩

end Fountainer
