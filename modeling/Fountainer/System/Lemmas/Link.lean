import Fountainer.Proto.Lemmas.Session
import Fountainer.System.Link

/-!
# Invariants of a link

`Correlated` ties the pending table to the requests and to the messages that have been received;
`Accepted` says that a peer with the same session parameters accepts the signed frames in order.
Every operation of a link keeps both.
-/

namespace Fountainer

namespace Link

/-! ## Starting a call -/

/-- What `start` does to a link. -/
inductive Started (l : Link) (now : Clock) : Call → Link → Except PyErr (Option Nat) → Prop
  | failed {call : Call} {seq id : Nat} {e : PyErr} (hseq : l.session.s2cSeq ≤ seq)
      (hid : l.session.msgSeq ≤ id) :
      Started l now call
        { l with session := { l.session with s2cSeq := seq, msgSeq := id }
                 signed := l.signed ++ signedBy l.session now call } (.error e)
  | send {name : Str} {body msg frame : Dict} {irt : Json} {s : DeviceSession}
      (hmsg : buildMessage name body none none irt now = .ok msg)
      (hframe : DeviceSession.Framed l.session name msg s frame) :
      Started l now (.send name body irt)
        { l with session := s, sent := l.sent ++ [frame]
                 signed := l.signed ++ signedBy l.session now (.send name body irt) } (.ok none)
  | request {name : Str} {body msg frame : Dict} {s : DeviceSession} {msgId : Str}
      (hid : msgId = DeviceSession.msgIdText (l.session.msgSeq + 1))
      (hmsg : buildMessage name body none (some msgId) .null now = .ok msg)
      (hframe : DeviceSession.Framed { l.session with msgSeq := l.session.msgSeq + 1 } name msg s
        frame) :
      Started l now (.request name body)
        { l with session := { s with pending := s.pending ++ [(msgId, .waiting)] }
                 sent := l.sent ++ [frame]
                 requests := l.requests ++
                   [{ msgId, phase := .sending, regAt := l.received.length }]
                 signed := l.signed ++ signedBy l.session now (.request name body) }
        (.ok (some l.requests.length))

theorem start_started (l : Link) (now : Clock) (call : Call) :
    Started l now call (l.start now call).1 (l.start now call).2 := by
  cases call with
  | send name body irt =>
      unfold start
      dsimp only
      cases h : l.session.send now name body irt with
      | mk s r =>
          cases r with
          | error e =>
              obtain ⟨seq, hle, hs⟩ := DeviceSession.send_session l.session now name body irt
              rw [h] at hs
              dsimp only at hs
              subst hs
              exact .failed hle (Nat.le_refl _)
          | ok frame =>
              obtain ⟨msg, hmsg, hframe⟩ := DeviceSession.send_ok h
              exact .send hmsg hframe
  | request name body =>
      unfold start
      dsimp only
      cases h : l.session.request now name body with
      | mk s r =>
          cases r with
          | error e =>
              obtain ⟨seq, hle, hs⟩ := DeviceSession.request_error h
              subst hs
              exact .failed hle (Nat.le_succ _)
          | ok x =>
              obtain ⟨msgId, frame⟩ := x
              obtain ⟨msg, s₁, hid, hmsg, hframe, rfl⟩ := DeviceSession.request_ok h
              exact .request hid hmsg hframe

theorem start_session (l : Link) (now : Clock) (call : Call) :
    ∃ seq id p, l.session.s2cSeq ≤ seq ∧
      (l.start now call).1.session = { l.session with s2cSeq := seq, msgSeq := id, pending := p } := by
  have h := start_started l now call
  generalize l.start now call = out at h ⊢
  obtain ⟨l', r⟩ := out
  cases h with
  | failed hseq hid => exact ⟨_, _, _, hseq, rfl⟩
  | send hmsg hframe =>
      obtain ⟨seq, hle, rfl⟩ := hframe.session
      exact ⟨seq, _, _, hle, rfl⟩
  | request hid hmsg hframe =>
      obtain ⟨seq, hle, rfl⟩ := hframe.session
      exact ⟨seq, _, _, hle, rfl⟩

@[simp] theorem start_received (l : Link) (now : Clock) (call : Call) :
    (l.start now call).1.received = l.received := by
  have h := start_started l now call
  generalize l.start now call = out at h ⊢
  obtain ⟨l', r⟩ := out
  cases h <;> rfl

theorem start_signed (l : Link) (now : Clock) (call : Call) :
    (l.start now call).1.signed = l.signed ++ signedBy l.session now call := by
  have h := start_started l now call
  generalize l.start now call = out at h ⊢
  obtain ⟨l', r⟩ := out
  cases h <;> rfl

theorem start_sent (l : Link) (now : Clock) (call : Call) :
    (l.start now call).1.sent = l.sent ∨
      ∃ frame, (l.start now call).1.sent = l.sent ++ [frame] := by
  have h := start_started l now call
  generalize l.start now call = out at h ⊢
  obtain ⟨l', r⟩ := out
  cases h with
  | failed => exact .inl rfl
  | send => exact .inr ⟨_, rfl⟩
  | request => exact .inr ⟨_, rfl⟩

/-! ## Operations that send nothing -/

/-- Nothing was sent, and the session changed in its futures and its receive time only. -/
structure Still (l l' : Link) : Prop where
  sent : l'.sent = l.sent
  signed : l'.signed = l.signed
  session : ∃ p ms, l'.session = { l.session with pending := p, lastRxMs := ms }

theorem Still.refl (l : Link) : Still l l := ⟨rfl, rfl, _, _, rfl⟩

theorem Still.params {l l' : Link} (h : Still l l') (d : Direction) :
    l'.session.params d = l.session.params d := by
  obtain ⟨p, ms, hs⟩ := h.session
  rw [hs]
  rfl

theorem leave_still (l : Link) (k : Nat) (r : Request) (p : Phase) : Still l (l.leave k r p) :=
  ⟨rfl, rfl, _, _, rfl⟩

theorem sendDone_still (l : Link) (k : Nat) (ok : Bool) : Still l (l.sendDone k ok) := by
  unfold sendDone
  split
  · exact .refl l
  · split
    · exact .refl l
    · split
      · exact leave_still ..
      · split
        · exact leave_still ..
        · exact ⟨rfl, rfl, _, _, rfl⟩

theorem expire_still (l : Link) (k : Nat) : Still l (l.expire k) := by
  unfold expire
  split
  · exact .refl l
  · split
    · exact .refl l
    · exact ⟨rfl, rfl, _, _, rfl⟩

theorem wake_still (l : Link) (k : Nat) (raises : Bool) : Still l (l.wake k raises) := by
  unfold wake
  split
  · exact .refl l
  · split
    · exact .refl l
    · split
      · exact leave_still ..
      · split
        · exact leave_still ..
        · exact .refl l

theorem dispatch_still (l : Link) (now : Clock) (callbacks : Str → Bool) (msg : Json) :
    Still l (l.dispatch now callbacks msg).1 := by
  refine ⟨rfl, rfl, ?_⟩
  unfold dispatch
  cases hd : l.session.dispatch now callbacks msg with
  | mk s r =>
      cases DeviceSession.dispatch_cases hd with
      | reply hmsg hirt hp => exact ⟨_, _, rfl⟩
      | callback hmsg hkey hcb => exact ⟨_, _, rfl⟩
      | dropped => exact ⟨_, _, rfl⟩
      | raised => exact ⟨_, _, rfl⟩

end Link

end Fountainer
