import Fountainer.Proto.Lemmas.Signing
import Fountainer.System.Stages

/-!
# What a verified session proof is evidence of

A proof is accepted when its MAC fits the joined field texts of the session. With an ideal MAC somebody
who holds the key has signed the joined text, as a message of the device or as one of the server.
-/

namespace Fountainer

variable {cfg : Config} {s₀ s s' : State} {e : Step}

/-! ## The texts under the MACs -/

theorem messageMeta_clean {name : Str} {m : Meta} (h : messageMeta name = some m) : name.Clean := by
  have hall : ∀ m ∈ messageTable, m.name.Clean := by decide
  rw [← messageMeta_name h]
  exact hall m (List.mem_of_find?_eq_some h)

theorem textOrEmpty_optText {i : Option Str} {t : Str} (h : (optText i).textOrEmpty = .ok t)
    (hi : ∀ j, i = some j → j.Clean) : t.Clean := by
  rcases textOrEmpty_cases h with h | rfl
  · cases i with
    | none => cases h
    | some j => cases h; exact hi _ rfl
  · exact Str.clean_nil

/-! ## What the server signs -/

theorem Link.signedBy_mem {session : DeviceSession} {now : Clock} {call : Call} {y : Signed}
    (h : y ∈ Link.signedBy session now call) : ∃ name msg msgId irt, isControl name = true ∧
      buildMessage name call.body none msgId irt now = .ok msg ∧
      signInput (session.params .s2c) msg (session.s2cSeq + 1) = .ok y ∧
      (∀ i, msgId = some i → i.Clean) ∧ (irt = .null ∨ call = .send name call.body irt) := by
  have hgo : ∀ name (msg : Except PyErr Dict), y ∈ signedBy.go session name msg →
      ∃ m, msg = .ok m ∧ isControl name = true ∧
        signInput (session.params .s2c) m (session.s2cSeq + 1) = .ok y := by
    intro name msg hy
    unfold signedBy.go at hy
    split at hy
    · rename_i m
      split at hy
      · rename_i hcontrol
        split at hy
        · rename_i x hx
          rw [List.mem_singleton.mp hy]
          exact ⟨m, rfl, hcontrol, hx⟩
        · cases hy
      · cases hy
    · cases hy
  cases call with
  | send name body irt =>
      obtain ⟨m, hm, hcontrol, hx⟩ := hgo _ _ h
      exact ⟨name, m, none, irt, hcontrol, hm, hx, fun i hi => (by cases hi), .inr rfl⟩
  | request name body =>
      obtain ⟨m, hm, hcontrol, hx⟩ := hgo _ _ h
      refine ⟨name, m, _, .null, hcontrol, hm, hx, fun i hi => ?_, .inl rfl⟩
      cases hi
      exact DeviceSession.msgIdText_clean _

theorem Link.signedBy_s2c {session : DeviceSession} {now : Clock} {call : Call} {y : Signed}
    (h : y ∈ Link.signedBy session now call) :
    y.fields.direction = py "s2c" ∧ macInput y.fields = .ok y.raw := by
  obtain ⟨name, msg, msgId, irt, -, -, hx, -, -⟩ := Link.signedBy_mem h
  obtain ⟨hfields, hraw, -⟩ := signInput_eq_ok hx
  obtain ⟨v, mtype, ts, bhash, -, -, -, -, -, -, hdir, -⟩ := messageFields_eq_ok hfields
  exact ⟨hdir, hraw⟩

/-- With clean session parameters, and a clean `in_reply_to`, the signed texts are clean. -/
theorem Link.signedBy_clean {session : DeviceSession} {now : Clock} {call : Call} {y : Signed}
    (h : y ∈ Link.signedBy session now call) (hbody : call.CleanBody)
    (hirt : ∀ name irt, call = .send name call.body irt → ∀ t, irt.textOrEmpty = .ok t → t.Clean)
    (hid : session.deviceId.Clean) (hsn : session.serverNonce.Clean)
    (hkid : ∀ k, session.kid = some k → k.Clean)
    (hcn : ∀ t, session.clientNonce.textOrEmpty = .ok t → t.Clean) : y.fields.Clean := by
  obtain ⟨name, msg, msgId, irt, hcontrol, hmsg, hx, hmsgId, hcall⟩ := Link.signedBy_mem h
  obtain ⟨hfields, -, -⟩ := signInput_eq_ok hx
  obtain ⟨v, mtype, ts, bhash, hv, hmtype, hts, hbhash, fv, fmtype, fdir, fid, fserial, fts, fmsgId,
    firt, fkid, fseq, fsn, fcn, fbhash⟩ := messageFields_eq_ok hfields
  obtain ⟨⟨w, gv⟩, gtype, gts, gserial, gmsgId, girt⟩ := buildMessage_fields hmsg hbody
  rw [gv] at hv
  rw [gtype] at hmtype
  rw [gts] at hts
  rw [gserial] at fserial
  rw [gmsgId] at fmsgId
  rw [girt] at firt
  cases hv
  cases hmtype
  cases hts
  cases fmtype
  have hname : y.fields.mtype.Clean := by
    unfold isControl at hcontrol
    split at hcontrol
    · rename_i m hm
      exact messageMeta_clean hm
    · cases hcontrol
  have hserial : y.fields.serial.Clean := textOrEmpty_optText (i := none) fserial fun j hj => (by cases hj)
  have hmid : y.fields.msgId.Clean := textOrEmpty_optText fmsgId hmsgId
  have hreply : y.fields.inReplyTo.Clean := by
    rcases hcall with rfl | hcall
    · exact textOrEmpty_optText (i := none) firt fun j hj => (by cases hj)
    · exact hirt _ _ hcall _ firt
  have hk : y.fields.kid.Clean := hkid _ (optText_text fkid)
  have hhash : y.fields.bhash.Clean := by
    rw [fbhash]
    obtain ⟨body, -, hb⟩ := ok_of_bind hbhash
    cases hb
    exact hexText_clean _
  intro t ht
  simp only [MacFields.toList, List.mem_cons, List.not_mem_nil, or_false] at ht
  rcases ht with rfl | rfl | rfl | rfl | rfl | rfl | rfl | rfl | rfl | rfl | rfl | rfl | rfl
  · rw [fv]
    exact decimal_clean w
  · exact hname
  · have hs2c : (py "s2c").Clean := by decide
    rw [fdir]
    exact hs2c
  · rw [fid]
    exact hid
  · exact hserial
  · rw [fts]
    exact decimal_clean _
  · exact hmid
  · exact hreply
  · exact hk
  · rw [fseq]
    exact decimal_clean (session.s2cSeq + 1)
  · rw [fsn]
    exact hsn
  · exact hcn _ fcn
  · exact hhash

/-! ## Conditions on runs -/

/-- Everything a MAC has been computed over. -/
def State.signedInputs (s : State) : List Signed :=
  s.deviceSigned ++ (List.range s.nextConn).flatMap fun c => match s.conns c with
    | some x => x.link.signed
    | none => []

theorem State.mem_signedInputs {y : Signed} (h : y ∈ s.signedInputs) :
    y ∈ s.deviceSigned ∨ ∃ c x, s.conns c = some x ∧ y ∈ x.link.signed := by
  rcases List.mem_append.mp h with h | h
  · exact .inl h
  · obtain ⟨c, -, hc⟩ := List.mem_flatMap.mp h
    cases hx : s.conns c with
    | none => simp [hx] at hc
    | some x => exact .inr ⟨c, x, hx, by simpa [hx] using hc⟩

/-- The ideal MAC: a session proof is accepted only if its input has been signed under its key. -/
def idealMac (s : State) : Step → Bool
  | .recv c (.json (.obj d)) => match s.conns c with
      | some x => match verifyInput (x.link.session.params .c2s) d with
          | .ok z => decide (verify (x.link.session.params .c2s) d ≠ .ok .ok) ||
              s.signedInputs.any fun y => y.key = z.key ∧ y.raw = z.raw
          | .error _ => true
      | none => true
  | _ => true

/-- The field values of genuine devices contain no separator. -/
def honestDevices (_ : State) : Step → Bool
  | .deviceSign y => decide (y.fields.Clean ∧ macInput y.fields = .ok y.raw)
  | _ => true

/-- The server signs no field that contains a separator: neither for a control call, nor in the answer
to a message that reaches the `ota_check` hook by its type. -/
def clearFields (s : State) : Step → Bool
  | .api d call => match s.sessions d with
      | some c => match s.conns c with
          | some x => (Link.signedBy x.link.session s.now call).all fun y => decide y.fields.Clean
          | none => true
      | none => true
  | .recv c (.json (.obj d)) =>
      if s.lookedUp c d = some (py "__ota_check__") then
        match (Dict.get d (py "msg_id")).textOrEmpty with
        | .ok t => decide t.Clean
        | .error _ => true
      else true
  | _ => true

/-! ## The evidence behind a session -/

/-- `y` is a message of the device that is bound to the session of `x`. -/
structure Conn.BoundTo (x : Conn) (y : Signed) : Prop where
  key : x.link.session.authKey = some y.key
  direction : y.fields.direction = py "c2s"
  deviceId : y.fields.deviceId = x.link.session.deviceId
  serverNonce : y.fields.serverNonce = x.link.session.serverNonce
  clientNonce : x.link.session.clientNonce.textOrEmpty = .ok y.fields.clientNonce

/-- `y` is the session proof of `x`. -/
structure Conn.ProvenBy (x : Conn) (y : Signed) : Prop extends x.BoundTo y where
  kid : x.link.session.kid = some y.fields.kid
  msgId : ∀ msg, x.proof = some msg → (msg.get (py "msg_id")).textOrEmpty = .ok y.fields.msgId

theorem Conn.ProvenBy.of_session {x x' : Conn} {y : Signed} (h : x.ProvenBy y)
    (hp : x'.link.session.params .c2s = x.link.session.params .c2s) (hproof : x'.proof = x.proof) :
    x'.ProvenBy y := by
  obtain ⟨⟨hkey, hdir, hid, hsn, hcn⟩, hkid, hmsgId⟩ := h
  simp only [DeviceSession.params, AuthParams.mk.injEq, true_and] at hp
  obtain ⟨pkey, pkid, pid, psn, pcn⟩ := hp
  exact ⟨⟨pkey.trans hkey, hdir, hid.trans pid.symm, hsn.trans psn.symm, by rw [pcn]; exact hcn⟩,
    pkid.trans hkid, by rw [hproof]; exact hmsgId⟩

/-- The invariant: who has signed what, and the evidence behind every negotiated session. -/
structure Secure (s : State) : Prop where
  stages : Stages s
  device : ∀ y ∈ s.deviceSigned, y.fields.Clean ∧ macInput y.fields = .ok y.raw
  server : s.Each fun x => ∀ y ∈ x.link.signed,
    y.fields.Clean ∧ y.fields.direction = py "s2c" ∧ macInput y.fields = .ok y.raw
  bound : s.Each fun x => x.link.session.negotiated = true → ∃ y ∈ s.deviceSigned, x.ProvenBy y

/-- A verified proof leads to a message that the device has signed for this session. -/
theorem Secure.verified {c : Nat} {x : Conn} {session : DeviceSession} {d : Dict} (h : Secure s)
    (hx : s.conns c = some x) (hv : x.link.session.verifyC2s d = (session, .ok true))
    (hmac : idealMac s (.recv c (.json (.obj d))) = true) :
    ∃ y ∈ s.deviceSigned, Conn.ProvenBy
      { x with link := { x.link with session := { session with negotiated := true } }
               pc := .proofReply, proof := some d } y := by
  obtain ⟨hok, n, -, -, rfl⟩ := DeviceSession.verifyC2s_true hv
  obtain ⟨z, hz, hfields, hraw, hkey, -⟩ := verify_accepts hok
  obtain ⟨v, mtype, ts, bhash, -, -, -, -, -, -, fdir, fid, -, -, fmsgId, -, fkid, -, fsn, fcn, -⟩ :=
    messageFields_eq_ok hfields
  simp only [idealMac, hx, hz, hok, ne_eq, not_true_eq_false, decide_false, Bool.false_or,
    List.any_eq_true, decide_eq_true_eq] at hmac
  obtain ⟨y, hy, hykey, hyraw⟩ := hmac
  rcases State.mem_signedInputs hy with hy | ⟨c', x', hx', hy⟩
  · obtain ⟨hclean, hinput⟩ := h.device y hy
    have hsame : y.fields = z.fields := macInput_inj hclean hinput (by rw [hyraw]; exact hraw)
    refine ⟨y, hy, ⟨?_, ?_, ?_, ?_, ?_⟩, ?_, ?_⟩
    · rw [hykey]
      exact hkey
    · rw [hsame, fdir]
      rfl
    · rw [hsame, fid]
      rfl
    · rw [hsame, fsn]
      rfl
    · rw [hsame]
      exact fcn
    · rw [hsame]
      exact optText_text fkid
    · intro msg hmsg
      cases hmsg
      rw [hsame]
      exact fmsgId
  · -- a message of the server has another direction
    obtain ⟨hclean, hdir, hinput⟩ := h.server c' x' hx' y hy
    have hsame : y.fields = z.fields := macInput_inj hclean hinput (by rw [hyraw]; exact hraw)
    have hne : py "c2s" ≠ py "s2c" := by decide
    rw [hsame, fdir] at hdir
    exact absurd hdir hne

/-! ## The invariant is kept -/

theorem State.accept_deviceSigned (cfg : Config) (s : State) (d : Str) (rand : Bytes) :
    (s.accept cfg d rand).deviceSigned = s.deviceSigned := by
  rcases s.accept_cases cfg d rand with he | ⟨device, s₁, hd, hs₁, he⟩
  · rw [he]
  · have hs : s₁.deviceSigned = s.deviceSigned := by
      rcases hs₁ with rfl | ⟨old, x₁, hold, rfl⟩
      · rfl
      · exact setConn_deviceSigned ..
    rw [he]
    exact hs

theorem State.finish_deviceSigned (cfg : Config) {c : Nat} {x : Conn} (hx : s.conns c = some x) :
    (s.finish cfg c).deviceSigned = s.deviceSigned := by
  by_cases hd : s.sessions x.deviceId = some c
  · rw [finish_current _ _ hx hd, called_deviceSigned]
    rfl
  · rw [finish_replaced _ _ hx hd, setConn_deviceSigned]

/-- Only the device signs as the device. -/
theorem Micro.deviceSigned (hm : Micro cfg s₀ e s s') :
    s'.deviceSigned = s.deviceSigned ∨
      ∃ y, e = .deviceSign y ∧ s'.deviceSigned = s.deviceSigned ++ [y] := by
  cases hm with
  | tick he => exact .inl rfl
  | accept he => exact .inl (State.accept_deviceSigned ..)
  | deviceSign he => exact .inr ⟨_, he, rfl⟩
  | conn hx hnow ha hs => exact .inl rfl
  | connected hx hpc hc => exact .inl (State.called_deviceSigned ..)
  | finished hx hpc he => exact .inl (State.finish_deviceSigned cfg hx)
  | called hx hcall => exact .inl (State.called_deviceSigned ..)
  | stored => exact .inl rfl
  | task => exact .inl rfl
  | spawned => exact .inl rfl

/-- The parameters of a negotiated session are texts of the device. -/
structure Conn.CleanParams (x : Conn) : Prop where
  deviceId : x.link.session.deviceId.Clean
  serverNonce : x.link.session.serverNonce.Clean
  kid : ∀ k, x.link.session.kid = some k → k.Clean
  clientNonce : ∀ t, x.link.session.clientNonce.textOrEmpty = .ok t → t.Clean
  msgId : ∀ msg, x.proof = some msg → ∀ t, (msg.get (py "msg_id")).textOrEmpty = .ok t → t.Clean

theorem Conn.ProvenBy.cleanParams {x : Conn} {y : Signed} (h : x.ProvenBy y) (hy : y.fields.Clean) :
    x.CleanParams := by
  have hmem : ∀ t, t ∈ y.fields.toList → t.Clean := hy
  simp only [MacFields.toList, List.mem_cons, List.not_mem_nil, or_false] at hmem
  refine ⟨?_, ?_, ?_, ?_, ?_⟩
  · rw [← h.deviceId]
    exact hmem _ (by simp)
  · rw [← h.serverNonce]
    exact hmem _ (by simp)
  · intro k hk
    rw [h.kid, Option.some.injEq] at hk
    exact hmem _ (by simp [← hk])
  · intro t ht
    rw [h.clientNonce, Except.ok.injEq] at ht
    exact hmem _ (by simp [← ht])
  · intro msg hmsg t ht
    rw [h.msgId msg hmsg, Except.ok.injEq] at ht
    exact hmem _ (by simp [← ht])

theorem Secure.cleanParams {c : Nat} {x : Conn} (h : Secure s) (hx : s.conns c = some x)
    (hn : x.link.session.negotiated = true) : x.CleanParams := by
  obtain ⟨y, hy, hproven⟩ := h.bound c x hx hn
  exact hproven.cleanParams (h.device y hy).1

theorem signedBy_dpRead (session : DeviceSession) (now : Clock) (names : Json) :
    Link.signedBy session now (dpReadCall names) = [] := by
  have hplain : isControl (py "dp_read") = false := by decide
  unfold Link.signedBy dpReadCall Link.signedBy.go
  dsimp only
  split
  · rw [if_neg (by rw [hplain]; exact Bool.false_ne_true)]
  · rfl

theorem Secure.signedBy_clean {c : Nat} {x : Conn} {call : Call} {y : Signed} (h : Secure s)
    (hx : s.conns c = some x) (ho : Origin s₀ e s c x call) (hok : clearFields s₀ e = true)
    (hy : y ∈ Link.signedBy x.link.session s.now call) : y.fields.Clean := by
  cases ho with
  | api he hd hs =>
      subst he hs
      simp only [clearFields, hd, hx, List.all_eq_true, decide_eq_true_eq] at hok
      exact hok y hy
  | dpRead he hd hs =>
      rw [signedBy_dpRead] at hy
      cases hy
  | task ht hc hp hbody =>
      obtain ⟨x', hx', hn⟩ := h.stages.polling _ _ ht hp
      rw [hc, hx] at hx'
      cases hx'
      have hclean := h.cleanParams hx hn
      exact Link.signedBy_clean hy hbody (fun name irt hcall => by cases hcall) hclean.deviceId
        hclean.serverNonce hclean.kid hclean.clientNonce
  | answer hpc hbody hmsg =>
      have hclean := h.cleanParams hx ((h.stages.staged c x hx).proven hpc.proven)
      refine Link.signedBy_clean hy hbody (fun name irt hcall t ht => ?_) hclean.deviceId
        hclean.serverNonce hclean.kid hclean.clientNonce
      cases hcall
      rcases hmsg with hproof | ⟨he, hkey⟩
      · exact hclean.msgId _ hproof t ht
      · subst he
        simp only [clearFields, if_pos hkey, ht, decide_eq_true_eq] at hok
        exact hok

/-- All conditions on a step. -/
def guarded (s : State) (e : Step) : Bool := idealMac s e && honestDevices s e && clearFields s e

theorem ConnStep.signed {c : Nat} {x x' : Conn} (hs : ConnStep s₀ e s c x x') :
    x'.link.signed = x.link.signed ∨ ∃ call, Origin s₀ e s c x call ∧
      x'.link.signed = x.link.signed ++ Link.signedBy x.link.session s.now call := by
  cases hs with
  | start ho => exact .inr ⟨_, ho, Link.start_signed ..⟩
  | quiet hq => exact .inl rfl
  | helloFailed hpc => exact .inl rfl
  | helloAcked hpc hack => exact .inl rfl
  | verified hpc hs he hv => exact .inl rfl
  | sendDone k ok => exact .inl (Link.sendDone_still ..).signed
  | expire k => exact .inl (Link.expire_still ..).signed
  | wake k raises => exact .inl (Link.wake_still ..).signed
  | dispatch hpc he => exact .inl (Link.dispatch_still ..).signed

/-- Before the proof a session is not negotiated, and after it its parameters are fixed. -/
theorem ConnStep.params {c : Nat} {x x' : Conn} (hs : ConnStep s₀ e s c x x') (h : Staged x)
    (hn : x'.link.session.negotiated = true) :
    (x'.link.session.params .c2s = x.link.session.params .c2s ∧ x'.proof = x.proof ∧
      x.link.session.negotiated = true) ∨
    ∃ d session, s = s₀ ∧ e = .recv c (.json (.obj d)) ∧
      x.link.session.verifyC2s d = (session, .ok true) ∧
      x' = { x with link := { x.link with session := { session with negotiated := true } }
                    pc := .proofReply, proof := some d } := by
  have hstill : ∀ l, Link.Still x.link l → l.session.negotiated = true →
      l.session.params .c2s = x.link.session.params .c2s ∧ x.link.session.negotiated = true := by
    intro l hl hneg
    obtain ⟨p, ms, hsession⟩ := hl.session
    rw [hsession] at hneg
    exact ⟨hl.params _, hneg⟩
  have hhello : x.pc = .hello → ∀ now d, (x.link.session.hello now d).1.negotiated = false := by
    intro hpc now d
    obtain ⟨cn, kid, key, hsession, -⟩ := DeviceSession.hello_session x.link.session now d
    rw [hsession]
    exact (h.early (hpc ▸ .hello)).2.1
  cases hs with
  | quiet hq => exact .inl ⟨rfl, rfl, hn⟩
  | helloFailed hpc => exact absurd hn (by simp [hhello hpc])
  | helloAcked hpc hack => exact absurd hn (by simp [Link.push, hhello hpc])
  | verified hpc hs he hv => exact .inr ⟨_, _, hs, he, hv, rfl⟩
  | start ho =>
      obtain ⟨seq, id, p, -, hsession⟩ := Link.start_session x.link s.now ‹Call›
      simp only [hsession] at hn
      refine .inl ⟨?_, rfl, hn⟩
      rw [hsession]
      rfl
  | sendDone k ok =>
      obtain ⟨hp, hneg⟩ := hstill _ (Link.sendDone_still ..) hn
      exact .inl ⟨hp, rfl, hneg⟩
  | expire k =>
      obtain ⟨hp, hneg⟩ := hstill _ (Link.expire_still ..) hn
      exact .inl ⟨hp, rfl, hneg⟩
  | wake k raises =>
      obtain ⟨hp, hneg⟩ := hstill _ (Link.wake_still ..) hn
      exact .inl ⟨hp, rfl, hneg⟩
  | dispatch hpc he =>
      obtain ⟨hp, hneg⟩ := hstill _ (Link.dispatch_still ..) hn
      exact .inl ⟨hp, rfl, hneg⟩

theorem secure_micro (hok : guarded s₀ e = true) (hm : Micro cfg s₀ e s s') (h : Secure s) :
    Secure s' := by
  simp only [guarded, Bool.and_eq_true] at hok
  obtain ⟨⟨hmac, hdevice⟩, hclear⟩ := hok
  have hgrow : ∀ y ∈ s.deviceSigned, y ∈ s'.deviceSigned := by
    intro y hy
    rcases hm.deviceSigned with hs | ⟨y', -, hs⟩
    · rw [hs]
      exact hy
    · rw [hs]
      exact List.mem_append_left _ hy
  refine ⟨stages_micro hm h.stages, ?_, ?_, ?_⟩
  · intro y hy
    rcases hm.deviceSigned with hs | ⟨y', he, hs⟩
    · rw [hs] at hy
      exact h.device y hy
    · rw [hs] at hy
      rcases List.mem_append.mp hy with hy | hy
      · exact h.device y hy
      · rw [List.mem_singleton.mp hy]
        subst he
        exact of_decide_eq_true hdevice
  · refine hm.each ?_ ?_ ?_ ?_ ?_ h.server
    · exact fun d device rand _ _ y hy => (by cases hy)
    · exact fun x b hx => hx
    · intro c x x' hx hs hserver y hy
      rcases hs.signed with hsame | ⟨call, ho, hsigned⟩
      · rw [hsame] at hy
        exact hserver y hy
      · rw [hsigned] at hy
        rcases List.mem_append.mp hy with hy | hy
        · exact hserver y hy
        · exact ⟨h.signedBy_clean hx ho hclear hy, Link.signedBy_s2c hy⟩
    · exact fun c x _ _ hx => hx
    · exact fun x hx => hx
  · refine hm.each ?_ ?_ ?_ ?_ ?_ (P := fun x => x.link.session.negotiated = true →
      ∃ y ∈ s'.deviceSigned, x.ProvenBy y) ?_
    · exact fun d device rand _ _ hn => (by cases hn)
    · intro x b hx hn
      obtain ⟨y, hy, hp⟩ := hx hn
      exact ⟨y, hy, hp.of_session rfl rfl⟩
    · intro c x x' hx hs hbound hn
      rcases hs.params (h.stages.staged c x hx) hn with ⟨hp, hproof, hneg⟩ | ⟨d, session, rfl, rfl, hv, rfl⟩
      · obtain ⟨y, hy, hproven⟩ := hbound hneg
        exact ⟨y, hy, hproven.of_session hp hproof⟩
      · obtain ⟨y, hy, hproven⟩ := h.verified hx hv hmac
        exact ⟨y, hgrow y hy, hproven⟩
    · intro c x hx _ hbound hn
      obtain ⟨y, hy, hp⟩ := hbound hn
      exact ⟨y, hy, hp.of_session rfl rfl⟩
    · intro x hbound hn
      obtain ⟨y, hy, hp⟩ := hbound hn
      exact ⟨y, hy, hp.of_session rfl rfl⟩
    · intro c x hx hn
      obtain ⟨y, hy, hp⟩ := h.bound c x hx hn
      exact ⟨y, hgrow y hy, hp⟩

theorem secure_after {t : Nat} {es : List Step} (hmac : State.Along cfg idealMac t es)
    (hdevice : State.Along cfg honestDevices t es) (hclear : State.Along cfg clearFields t es) :
    Secure (State.after cfg t es) := by
  have hall : State.Along cfg guarded t es :=
    ((hmac.and hdevice).and hclear).imp fun s e h => by simp [guarded, h]
  refine invariant_of_micro ?_ (fun s₀ e s s' hok _ hm => secure_micro hok hm) hall
  exact ⟨stages_init t, fun _ h => (by cases h), fun _ _ h => (by cases h), fun _ _ h => (by cases h)⟩

/-- Every negotiated session is bound to a message that the device has signed. -/
def State.Agreed (s : State) : Prop :=
  s.Each fun x => x.link.session.negotiated = true → ∃ y ∈ s.deviceSigned, x.BoundTo y

/-- As long as the server signs no field that contains the separator, a session is negotiated only if the
device has signed a message from it to the server that is bound to both nonces of this session. -/
theorem negotiated_agreed (cfg : Config) (t : Nat) (es : List Step)
    (hmac : State.Along cfg idealMac t es) (hdevice : State.Along cfg honestDevices t es)
    (hes : State.Along cfg clearFields t es) : (State.after cfg t es).Agreed := by
  intro c x hx hn
  obtain ⟨y, hy, hproven⟩ := (secure_after hmac hdevice hes).bound c x hx hn
  exact ⟨y, hy, hproven.toBoundTo⟩

/-- The handshake of the device, with the signature behind its proof, and a command. -/
def sampleSigned : List Step :=
  [.accept (py "fon-1") [7], .recv 0 (sampleHello "n"), .resume 0 true] ++
    (match verifyInput (sampleParams [7] "n") (sampleProof [7] "n") with
      | .ok y => [.deviceSign y]
      | .error _ => []) ++
    [.recv 0 (.json (.obj (sampleProof [7] "n"))), .resume 0 true, .api (py "fon-1") sampleCommand]

theorem negotiated_agreed_sample :
    ((State.after sampleConfig 0 sampleSigned).conns 0).any (·.link.session.negotiated) = true ∧
      (State.after sampleConfig 0 sampleSigned).Agreed := by
  have hrun : ((State.after sampleConfig 0 sampleSigned).conns 0).any (·.link.session.negotiated) = true ∧
      State.Along sampleConfig idealMac 0 sampleSigned ∧ State.Along sampleConfig honestDevices 0 sampleSigned ∧
      State.Along sampleConfig clearFields 0 sampleSigned := by decide +kernel
  exact ⟨hrun.1, negotiated_agreed _ _ _ hrun.2.1 hrun.2.2.1 hrun.2.2.2⟩

/-! ## A spliced proof -/

/-- The rest of a session proof for connection 0, as the client nonce of connection 1. -/
def splicedNonce : String :=
  "ota_check\x1fc2s\x1ffon-1\x1f\x1f0\x1f\x1f\x1fk1\x1f1\x1fAQ==\x1fb"

/-- Two half-open connections of a peer without the key, and a command that reaches the second one. -/
def splicePrefix : List Step :=
  [.accept (py "fon-1") [1], .recv 0 (sampleHello "b"), .resume 0 true,
   .accept (py "fon-1") [2], .recv 1 (sampleHello splicedNonce), .resume 1 true,
   .api (py "fon-1") sampleCommand]

/-- The `auth` field of the command that connection 1 has received. -/
def seenAuth : Json :=
  match (State.after sampleConfig 0 splicePrefix).conns 1 with
  | some x => Dict.get (x.link.sent.getLast?.getD []) (py "auth")
  | none => .null

/-- The beginning of the command's MAC input, up to its client nonce, moves into the field `v`. -/
def splicedProof : Dict :=
  [(py "v", .str (py "2\x1fcommand\x1fs2c\x1ffon-1\x1f\x1f0\x1fs-1\x1f\x1fk1\x1f1\x1fAg==")),
   (py "type", .str (py "ota_check")), (py "ts", .int 0), (py "command", .str (py "relay_on")),
   (py "auth", seenAuth)]

/-- The command for connection 1 is the session proof of connection 0: the session is negotiated though
the device has signed nothing. -/
theorem spliced_proof_accepted :
    State.Along sampleConfig idealMac 0 (splicePrefix ++ [.recv 0 (.json (.obj splicedProof))]) ∧
      State.Along sampleConfig honestDevices 0 (splicePrefix ++ [.recv 0 (.json (.obj splicedProof))]) ∧
      ¬ (State.after sampleConfig 0
        (splicePrefix ++ [.recv 0 (.json (.obj splicedProof))])).Agreed := by
  have hrun : State.Along sampleConfig idealMac 0 (splicePrefix ++ [.recv 0 (.json (.obj splicedProof))]) ∧
      State.Along sampleConfig honestDevices 0 (splicePrefix ++ [.recv 0 (.json (.obj splicedProof))]) ∧
      ((State.after sampleConfig 0 (splicePrefix ++ [.recv 0 (.json (.obj splicedProof))])).conns
        0).any (·.link.session.negotiated) = true ∧ (State.after sampleConfig 0
        (splicePrefix ++ [.recv 0 (.json (.obj splicedProof))])).deviceSigned.length = 0 := by
    decide +kernel
  obtain ⟨hideal, hhonest, hnegotiated, hnone⟩ := hrun
  have hdisagree : ¬ (State.after sampleConfig 0
      (splicePrefix ++ [.recv 0 (.json (.obj splicedProof))])).Agreed := by
    intro h
    obtain ⟨x, hx, hn⟩ := (Option.any_eq_true _ _).mp hnegotiated
    obtain ⟨y, hy, -⟩ := h 0 x hx hn
    rw [List.eq_nil_of_length_eq_zero hnone] at hy
    cases hy
  exact ⟨hideal, hhonest, hdisagree⟩

end Fountainer
