import Fountainer.Proto.Session
import Fountainer.Proto.Lemmas.Auth

/-!
# What the session operations do

One lemma for each operation: which fields of the session it changes, and which frame it makes.
-/

namespace Fountainer

/-! ## Message ids -/

theorem ofChars_inj {cs ds : List Char} (h : ofChars cs = ofChars ds) : cs = ds :=
  List.map_injective_iff.mpr (fun _ _ hc => by injection hc) h

theorem decimal_natCast_inj {m n : Nat} (h : decimal m = decimal n) : m = n := by
  have hdigits : Nat.toDigits 10 m = Nat.toDigits 10 n := ofChars_inj h
  rw [← Nat.ofDigitChars_toDigits (n := m) (by decide) (Nat.le_refl 10), hdigits,
    Nat.ofDigitChars_toDigits (by decide) (Nat.le_refl 10)]

namespace DeviceSession

theorem msgIdText_inj {m n : Nat} (h : msgIdText m = msgIdText n) : m = n :=
  decimal_natCast_inj (List.append_cancel_left h)

theorem msgIdText_clean (n : Nat) : Str.Clean (msgIdText n) :=
  Str.Clean.append (by decide) (decimal_clean n)

/-! ## Sending -/

/-- The frame of a message: signed with the next sequence number when its type demands it. -/
inductive Framed (s : DeviceSession) (name : Str) (msg : Dict) : DeviceSession → Dict → Prop
  | plain (h : isControl name = false) : Framed s name msg s msg
  | signed {frame : Dict} (h : isControl name = true)
      (hsign : sign (s.params .s2c) msg (s.s2cSeq + 1) = .ok frame) :
      Framed s name msg { s with s2cSeq := s.s2cSeq + 1 } frame

theorem signIfNeeded_ok {s s' : DeviceSession} {name : Str} {msg frame : Dict}
    (h : s.signIfNeeded name msg = (s', .ok frame)) : Framed s name msg s' frame := by
  unfold signIfNeeded at h
  split at h
  · rename_i hc
    obtain ⟨rfl, hsign⟩ := Prod.mk.inj h
    exact .signed hc hsign
  · rename_i hc
    obtain ⟨rfl, hmsg⟩ := Prod.mk.inj h
    cases hmsg
    exact .plain (by simpa using hc)

theorem signIfNeeded_session (s : DeviceSession) (name : Str) (msg : Dict) :
    ∃ seq, s.s2cSeq ≤ seq ∧ (s.signIfNeeded name msg).1 = { s with s2cSeq := seq } := by
  unfold signIfNeeded
  split
  · exact ⟨_, Nat.le_succ _, rfl⟩
  · exact ⟨_, Nat.le_refl _, rfl⟩

theorem send_ok {s s' : DeviceSession} {now : Clock} {name : Str} {body : Dict} {irt : Json}
    {frame : Dict} (h : s.send now name body irt = (s', .ok frame)) :
    ∃ msg, buildMessage name body none none irt now = .ok msg ∧ Framed s name msg s' frame := by
  unfold send at h
  split at h
  · simp at h
  · rename_i msg hmsg
    exact ⟨msg, hmsg, signIfNeeded_ok h⟩

theorem send_session (s : DeviceSession) (now : Clock) (name : Str) (body : Dict) (irt : Json) :
    ∃ seq, s.s2cSeq ≤ seq ∧ (s.send now name body irt).1 = { s with s2cSeq := seq } := by
  unfold send
  split
  · exact ⟨_, Nat.le_refl _, rfl⟩
  · exact signIfNeeded_session s name _

theorem request_ok {s s' : DeviceSession} {now : Clock} {name : Str} {body : Dict} {msgId : Str}
    {frame : Dict} (h : s.request now name body = (s', .ok (msgId, frame))) :
    ∃ msg s₁, msgId = msgIdText (s.msgSeq + 1) ∧
      buildMessage name body none (some msgId) .null now = .ok msg ∧
      Framed { s with msgSeq := s.msgSeq + 1 } name msg s₁ frame ∧
      s' = { s₁ with pending := s₁.pending ++ [(msgId, .waiting)] } := by
  simp only [request, nextMsgId] at h
  split at h
  · simp at h
  · rename_i msg hmsg
    split at h
    · simp at h
    · rename_i s₁ frame' hsign
      obtain ⟨rfl, hr⟩ := Prod.mk.inj h
      cases hr
      exact ⟨msg, s₁, rfl, hmsg, signIfNeeded_ok hsign, rfl⟩

theorem request_error {s s' : DeviceSession} {now : Clock} {name : Str} {body : Dict} {e : PyErr}
    (h : s.request now name body = (s', .error e)) :
    ∃ seq, s.s2cSeq ≤ seq ∧ s' = { s with msgSeq := s.msgSeq + 1, s2cSeq := seq } := by
  simp only [request, nextMsgId] at h
  split at h
  · obtain ⟨rfl, -⟩ := Prod.mk.inj h
    exact ⟨_, Nat.le_refl _, rfl⟩
  · rename_i msg hmsg
    split at h
    · rename_i s₁ e' hsign
      obtain ⟨rfl, -⟩ := Prod.mk.inj h
      obtain ⟨seq, hle, hs⟩ := signIfNeeded_session { s with msgSeq := s.msgSeq + 1 } name msg
      rw [hsign] at hs
      exact ⟨seq, hle, hs⟩
    · simp at h

theorem Framed.session {s s' : DeviceSession} {name : Str} {msg frame : Dict}
    (h : Framed s name msg s' frame) :
    ∃ seq, s.s2cSeq ≤ seq ∧ s' = { s with s2cSeq := seq } := by
  cases h with
  | plain => exact ⟨_, Nat.le_refl _, rfl⟩
  | signed => exact ⟨_, Nat.le_succ _, rfl⟩

/-! ## Receiving -/

/-- The key that `_dispatch` looks up among the callbacks, if it comes to that. -/
def lookupKey (s : DeviceSession) (d : Dict) : Option Str :=
  let irt := d.get (py "in_reply_to")
  if irt.truthy ∧ !irt.hashable then none
  else if (dispatch.pendingOf s irt).isSome then none
  else match Dict.getOr d (py "type") (.str []) with
    | .str name => some name
    | _ => none

theorem pendingOf_eq_some {s : DeviceSession} {irt : Json} {i : Str} {f : Fut}
    (h : dispatch.pendingOf s irt = some (i, f)) : irt = .str i ∧ s.pending.lookup i = some f := by
  unfold dispatch.pendingOf at h
  split at h
  · rename_i j
    split at h
    · cases h
    · obtain ⟨f', hf', he⟩ := Option.map_eq_some_iff.mp h
      cases he
      exact ⟨rfl, hf'⟩
  · cases h

/-- The outcomes of `_dispatch`. -/
inductive DispatchCase (s : DeviceSession) (now : Clock) (callbacks : Str → Bool) (msg : Json) :
    DeviceSession → Except PyErr Dispatched → Prop
  | reply {d : Dict} {i : Str} {f : Fut} (hmsg : msg = .obj d)
      (hirt : d.get (py "in_reply_to") = .str i) (hp : s.pending.lookup i = some f) :
      DispatchCase s now callbacks msg
        (setFuture { s with lastRxMs := now.ms } i (.result msg)) (.ok (.reply i !f.done))
  | callback {d : Dict} {key : Str} (hmsg : msg = .obj d) (hkey : s.lookupKey d = some key)
      (hcb : callbacks key = true) :
      DispatchCase s now callbacks msg { s with lastRxMs := now.ms } (.ok (.callback key))
  | dropped : DispatchCase s now callbacks msg { s with lastRxMs := now.ms } (.ok .dropped)
  | raised {e : PyErr} : DispatchCase s now callbacks msg { s with lastRxMs := now.ms } (.error e)

theorem dispatch_cases {s s' : DeviceSession} {now : Clock} {callbacks : Str → Bool} {msg : Json}
    {r : Except PyErr Dispatched} (h : s.dispatch now callbacks msg = (s', r)) :
    DispatchCase s now callbacks msg s' r := by
  have hpend : ∀ irt, dispatch.pendingOf { s with lastRxMs := now.ms } irt
      = dispatch.pendingOf s irt := fun irt => by cases irt <;> rfl
  unfold dispatch at h
  simp only [hpend] at h
  cases hd : msg.asDict with
  | error e =>
      rw [hd] at h
      obtain ⟨rfl, rfl⟩ := Prod.mk.inj h
      exact .raised
  | ok d =>
      have hmsg : msg = .obj d := by
        cases msg with
        | obj kvs => cases hd; rfl
        | _ => cases hd
      simp only [hd] at h
      by_cases hirt : (d.get (py "in_reply_to")).truthy ∧ !(d.get (py "in_reply_to")).hashable
      · rw [if_pos hirt] at h
        obtain ⟨rfl, rfl⟩ := Prod.mk.inj h
        exact .raised
      · rw [if_neg hirt] at h
        cases hp : dispatch.pendingOf s (d.get (py "in_reply_to")) with
        | some x =>
            obtain ⟨i, f⟩ := x
            simp only [hp] at h
            obtain ⟨rfl, rfl⟩ := Prod.mk.inj h
            obtain ⟨hi, hf⟩ := pendingOf_eq_some hp
            exact .reply hmsg hi hf
        | none =>
            simp only [hp] at h
            split at h
            · rename_i name hname
              obtain ⟨rfl, rfl⟩ := Prod.mk.inj h
              cases hcb : callbacks name with
              | true =>
                  refine .callback hmsg ?_ hcb
                  simp only [lookupKey, if_neg hirt, hp, hname, Option.isSome_none,
                    Bool.false_eq_true, if_false]
              | false => exact .dropped
            · split at h
              · obtain ⟨rfl, rfl⟩ := Prod.mk.inj h
                exact .dropped
              · obtain ⟨rfl, rfl⟩ := Prod.mk.inj h
                exact .raised

theorem dispatch_of_lookupKey {s : DeviceSession} {d : Dict} {key : Str} (h : s.lookupKey d = some key)
    (now : Clock) {callbacks : Str → Bool} (hcb : callbacks key = true) :
    (s.dispatch now callbacks (.obj d)).2 = .ok (.callback key) := by
  have hpend : ∀ irt, dispatch.pendingOf { s with lastRxMs := now.ms } irt
      = dispatch.pendingOf s irt := fun irt => by cases irt <;> rfl
  unfold lookupKey at h
  simp only [dispatch, Json.asDict, hpend]
  by_cases hirt : (d.get (py "in_reply_to")).truthy ∧ !(d.get (py "in_reply_to")).hashable
  · rw [if_pos hirt] at h
    cases h
  · rw [if_neg hirt] at h ⊢
    cases hp : dispatch.pendingOf s (d.get (py "in_reply_to")) with
    | some e =>
        rw [hp] at h
        cases h
    | none =>
        rw [hp] at h
        cases ht : Dict.getOr d (py "type") (.str []) with
        | str name =>
            rw [ht] at h
            cases h
            simp only [hcb, if_true]
        | _ =>
            rw [ht] at h
            cases h

/-! ## The session proof -/

/-- The counter advances exactly when a sequence number is accepted. -/
theorem check_eq {r r' : AntiReplay} {j : Json} {ok : Bool} (h : r.check j = (r', ok)) :
    (ok = false ∧ r' = r) ∨ (ok = true ∧ ∃ n, j.asInt = some n ∧ r.last < n ∧ r' = ⟨n⟩) := by
  unfold AntiReplay.check at h
  split at h
  · cases h
    exact .inl ⟨rfl, rfl⟩
  · rename_i n hn
    split at h
    · cases h
      exact .inl ⟨rfl, rfl⟩
    · rename_i hlt
      cases h
      exact .inr ⟨rfl, n, hn, by omega, rfl⟩

theorem verifyC2s_session {s s' : DeviceSession} {d : Dict} {r : Except PyErr Bool}
    (h : s.verifyC2s d = (s', r)) : ∃ replay, s' = { s with replay } := by
  unfold verifyC2s at h
  split at h
  · exact ⟨_, (Prod.mk.inj h).1.symm⟩
  · exact ⟨_, (Prod.mk.inj h).1.symm⟩
  · exact ⟨_, (Prod.mk.inj h).1.symm⟩

theorem verifyC2s_false {s s' : DeviceSession} {d : Dict}
    (h : s.verifyC2s d = (s', .ok false)) : s' = s := by
  unfold verifyC2s at h
  split at h
  · cases h
  · cases hc : s.replay.check (authSeq d) with
    | mk r ok =>
        rw [hc] at h
        obtain ⟨rfl, hok⟩ := Prod.mk.inj h
        cases hok
        rcases check_eq hc with ⟨-, rfl⟩ | ⟨hok, -⟩
        · rfl
        · cases hok
  · exact (Prod.mk.inj h).1.symm

/-- A verified proof has a valid MAC and a fresh sequence number. -/
theorem verifyC2s_true {s s' : DeviceSession} {d : Dict} (h : s.verifyC2s d = (s', .ok true)) :
    verify (s.params .c2s) d = .ok .ok ∧ ∃ n, (authSeq d).asInt = some n ∧ s.replay.last < n ∧
      s' = { s with replay := ⟨n⟩ } := by
  unfold verifyC2s at h
  split at h
  · cases h
  · rename_i hv
    cases hc : s.replay.check (authSeq d) with
    | mk r ok =>
        rw [hc] at h
        obtain ⟨rfl, hok⟩ := Prod.mk.inj h
        cases hok
        rcases check_eq hc with ⟨hok, -⟩ | ⟨-, n, hn, hlt, rfl⟩
        · cases hok
        · exact ⟨hv, n, hn, hlt, rfl⟩
  · cases (Prod.mk.inj h).2

/-! ## Handshake -/

/-- What the hello changes: the client nonce and, when it is accepted, kid and key. -/
theorem hello_session (s : DeviceSession) (now : Clock) (msg : Dict) :
    ∃ cn kid key, (s.hello now msg).1 = { s with clientNonce := cn, kid := kid, authKey := key } ∧
      (kid = s.kid ∨ ∃ k, kid = some k ∧ s.device.pickKid ((msg.get (py "auth_kids")).or (.arr []))
        = .ok (some k)) := by
  unfold hello
  split
  · exact ⟨s.clientNonce, s.kid, s.authKey, rfl, .inl rfl⟩
  · dsimp only
    split
    · exact ⟨_, s.kid, s.authKey, rfl, .inl rfl⟩
    · rename_i kid hneg
      obtain ⟨chosen, hchosen, hneg⟩ := ok_of_bind hneg
      obtain ⟨known, -, hneg⟩ := ok_of_bind hneg
      cases hneg
      exact ⟨_, some kid, s.device.keyFor kid, rfl, .inr ⟨kid, rfl, hchosen⟩⟩
    · exact ⟨_, s.kid, s.authKey, rfl, .inl rfl⟩

theorem buildMessage_type {name : Str} {body : Dict} {serial msgId : Option Str} {irt : Json}
    {now : Clock} {msg : Dict} (h : buildMessage name body serial msgId irt now = .ok msg)
    (hbody : py "type" ∉ body.map Prod.fst) : msg.get (py "type") = .str name := by
  unfold buildMessage at h
  split at h
  · cases h
  · cases h
    rw [Dict.get_update hbody]
    have htype : ∀ v ts : Json, Dict.get [(py "v", v), (py "type", .str name), (py "ts", ts)]
        (py "type") = .str name := fun v ts => rfl
    cases serial <;> cases msgId <;> by_cases hirt : irt = .null <;>
      simp only [hirt, if_true, if_false] <;>
      repeat' rw [Dict.get_set_of_ne (by decide)]
    all_goals exact htype _ _

theorem hello_ack {s s' : DeviceSession} {now : Clock} {msg ack : Dict}
    (h : s.hello now msg = (s', .ok (.accepted ack)) ∨ s.hello now msg = (s', .ok (.rejected ack))) :
    ack.get (py "type") = .str (py "hello_ack") := by
  unfold hello at h
  dsimp only at h
  split at h
  · simp at h
  · split at h
    · simp at h
    · rcases h with h | h
      · obtain ⟨-, hack⟩ := Prod.mk.inj h
        obtain ⟨m, hm, he⟩ := ok_of_map hack
        cases he
        exact buildMessage_type hm (by simp only [List.map_cons, List.map_nil]; decide)
      · obtain ⟨-, hack⟩ := Prod.mk.inj h
        obtain ⟨m, hm, he⟩ := ok_of_map hack
        cases he
    · rcases h with h | h
      · obtain ⟨-, hack⟩ := Prod.mk.inj h
        obtain ⟨m, hm, he⟩ := ok_of_map hack
        cases he
      · obtain ⟨-, hack⟩ := Prod.mk.inj h
        obtain ⟨m, hm, he⟩ := ok_of_map hack
        cases he
        exact buildMessage_type hm (by simp only [List.map_cons, List.map_nil]; decide)

end DeviceSession

end Fountainer
