import Fountainer.System.Invariant

/-!
# The stages of a connection

What holds of a connection before, at and after the session proof, in every run.
-/

namespace Fountainer

variable {cfg : Config} {s₀ s s' : State} {e : Step}

/-- The session proof has not arrived yet. -/
inductive Pc.Early : Pc → Prop
  | hello : Early .hello
  | ackSend (b : Bool) : Early (.ackSend b)
  | proof : Early .proof

/-- The session proof has been verified. -/
inductive Pc.Proven : Pc → Prop
  | proofReply : Proven .proofReply
  | live (l : Loop) (f : Bool) : Proven (.live l f)
  | cancelling : Proven .cancelling

theorem Pc.dispatches.proven {pc : Pc} (h : pc.dispatches) : pc.Proven := by
  rcases h with rfl | ⟨f, rfl⟩
  · exact .proofReply
  · exact .live _ _

/-- A pc change that leaves the connection alone goes on in its stage, or closes it. -/
theorem Quiet.stage {pc pc' : Pc} (h : Quiet pc pc') :
    (pc'.Early → pc.Early) ∧ (pc'.Proven → pc.Proven) ∧ (pc' = .hello → pc = .hello) ∧
      (pc' = .ended → pc = .ended) := by
  cases h with
  | same => exact ⟨id, id, id, id⟩
  | acked => exact ⟨fun _ => .ackSend _, fun hp => (by cases hp), fun he => (by cases he), fun he => (by cases he)⟩
  | rejected => exact ⟨fun he => (by cases he), fun hp => (by cases hp), fun he => (by cases he), fun he => (by cases he)⟩
  | noHello => exact ⟨fun he => (by cases he), fun hp => (by cases hp), fun he => (by cases he), fun he => (by cases he)⟩
  | noProof => exact ⟨fun he => (by cases he), fun hp => (by cases hp), fun he => (by cases he), fun he => (by cases he)⟩
  | loop => exact ⟨fun he => (by cases he), fun _ => .live _ _, fun he => (by cases he), fun he => (by cases he)⟩
  | stopped => exact ⟨fun he => (by cases he), fun _ => .live _ _, fun he => (by cases he), fun he => (by cases he)⟩

/-- The receive loop has been started. -/
inductive Pc.Started : Pc → Prop
  | live (l : Loop) (f : Bool) : Started (.live l f)
  | cancelling : Started .cancelling
  | ended : Started .ended

theorem Quiet.started {pc pc' : Pc} (h : Quiet pc pc') (hs : pc.Started) : pc'.Started := by
  cases h with
  | same => exact hs
  | acked => cases hs
  | rejected => cases hs
  | noHello => cases hs
  | noProof => cases hs
  | loop => exact .live _ _
  | stopped => exact .cancelling

/-- `msg` carries a valid MAC over the parameters of the session, and a sequence number that the
device has not used before. -/
structure Conn.Verified (x : Conn) (msg : Dict) : Prop where
  mac : verify (x.link.session.params .c2s) msg = .ok .ok
  fresh : ∃ n, (authSeq msg).asInt = some n ∧ 0 < n

theorem Conn.Verified.of_params {x x' : Conn} {msg : Dict} (h : x.Verified msg)
    (hp : x'.link.session.params .c2s = x.link.session.params .c2s) : x'.Verified msg :=
  ⟨by rw [hp]; exact h.mac, h.fresh⟩

structure Staged (x : Conn) : Prop where
  early : x.pc.Early →
    x.proof = none ∧ x.link.session.negotiated = false ∧ x.link.session.replay = {}
  proven : x.pc.Proven → x.link.session.negotiated = true
  shaken : x.shaken = true → x.pc.Started
  verified : ∀ msg, x.proof = some msg → x.Verified msg

namespace Staged

theorem not_shaken {x : Conn} (h : Staged x) (hpc : ¬ x.pc.Started) : x.shaken = false :=
  eq_false_of_ne_true fun hs => hpc (h.shaken hs)

theorem of_link {x : Conn} {l : Link} (h : Staged x)
    (hp : l.session.params .c2s = x.link.session.params .c2s)
    (hn : l.session.negotiated = x.link.session.negotiated)
    (hr : l.session.replay = x.link.session.replay) : Staged { x with link := l } := by
  refine ⟨?_, ?_, h.shaken, fun msg hmsg => (h.verified msg hmsg).of_params hp⟩
  · simpa [hn, hr] using h.early
  · simpa [hn] using h.proven

theorem of_quiet {x : Conn} {pc : Pc} {code : Option Nat} {req : Bool} (h : Staged x)
    (hq : Quiet x.pc pc) : Staged { x with pc, closeCode := code, closeRequested := req } := by
  obtain ⟨hearly, hproven, -, -⟩ := hq.stage
  exact ⟨fun he => h.early (hearly he), fun hp => h.proven (hproven hp), fun hs => hq.started (h.shaken hs),
    fun msg hmsg => (h.verified msg hmsg).of_params rfl⟩

theorem connStep {c : Nat} {x x' : Conn} (hs : ConnStep s₀ e s c x x') (h : Staged x) :
    Staged x' := by
  have hstill : ∀ l, Link.Still x.link l → Staged { x with link := l } := by
    intro l hl
    obtain ⟨p, ms, hsession⟩ := hl.session
    exact h.of_link (hl.params _) (by rw [hsession]) (by rw [hsession])
  cases hs with
  | quiet hq => exact h.of_quiet hq
  | helloFailed hpc =>
      obtain ⟨hnone, -, -⟩ := h.early (hpc ▸ .hello)
      have hsh := h.not_shaken (by rw [hpc]; exact fun hs => (by cases hs))
      exact ⟨fun he => (by cases he), fun hp => (by cases hp), by simp [hsh], by simp [hnone]⟩
  | helloAcked hpc hack =>
      rename_i d ack accepted
      obtain ⟨hnone, hneg, hreplay⟩ := h.early (hpc ▸ .hello)
      obtain ⟨cn, kid, key, hsession, -⟩ := DeviceSession.hello_session x.link.session s.now d
      have hsh := h.not_shaken (by rw [hpc]; exact fun hs => (by cases hs))
      refine ⟨fun _ => ⟨hnone, ?_, ?_⟩, fun hp => (by cases hp), by simp [hsh], by simp [hnone]⟩
      · simpa [Link.push, hsession] using hneg
      · simpa [Link.push, hsession] using hreplay
  | verified hpc hs he hv =>
      obtain ⟨-, -, hreplay⟩ := h.early (hpc ▸ .proof)
      obtain ⟨hmac, n, hn, hlt, rfl⟩ := DeviceSession.verifyC2s_true hv
      have hsh := h.not_shaken (by rw [hpc]; exact fun hs => (by cases hs))
      refine ⟨fun he => (by cases he), fun _ => rfl, by simp [hsh], fun msg hmsg => ?_⟩
      cases hmsg
      rw [hreplay] at hlt
      exact ⟨hmac, n, hn, hlt⟩
  | start ho =>
      obtain ⟨seq, id, p, -, hsession⟩ := Link.start_session x.link s.now ‹Call›
      refine h.of_link ?_ (by rw [hsession]) (by rw [hsession])
      rw [hsession]
      rfl
  | sendDone k ok => exact hstill _ (Link.sendDone_still ..)
  | expire k => exact hstill _ (Link.expire_still ..)
  | wake k raises => exact hstill _ (Link.wake_still ..)
  | dispatch hpc he => exact hstill _ (Link.dispatch_still ..)

theorem new (cfg : Config) (d : Str) (device : Device) (rand : Bytes) (now : Clock) :
    Staged (Conn.new cfg d device rand now) :=
  ⟨fun _ => ⟨rfl, rfl, rfl⟩, fun h => (by cases h), fun h => (by cases h), fun _ h => (by cases h)⟩

theorem shake {x : Conn} (h : Staged x) (hpc : x.pc = .proofReply) (now : Clock) : Staged (x.shake now) :=
  ⟨fun h => (by cases h), fun _ => h.proven (hpc ▸ .proofReply), fun _ => .live _ _,
    fun msg hmsg => (h.verified msg hmsg).of_params rfl⟩

theorem ended {x : Conn} (h : Staged x) : Staged { x with pc := .ended } :=
  ⟨fun h => (by cases h), fun h => (by cases h), fun _ => .ended,
    fun msg hmsg => (h.verified msg hmsg).of_params rfl⟩

theorem proof_eq {c : Nat} {x x' : Conn} (h : Staged x) (hs : ConnStep s₀ e s c x x') {msg : Dict}
    (hmsg : x.proof = some msg) : x'.proof = some msg := by
  cases hs with
  | verified hpc hs he hv =>
      rw [(h.early (hpc ▸ .proof)).1] at hmsg
      cases hmsg
  | _ => exact hmsg

end Staged

theorem ConnStep.shaken {c : Nat} {x x' : Conn} (h : ConnStep s₀ e s c x x') : x'.shaken = x.shaken := by
  cases h <;> rfl

theorem ConnStep.ended {c : Nat} {x x' : Conn} (h : ConnStep s₀ e s c x x') (hpc : x'.pc = .ended) :
    x.pc = .ended := by
  cases h with
  | quiet hq => exact hq.stage.2.2.2 hpc
  | helloFailed _ => cases hpc
  | helloAcked _ _ => cases hpc
  | verified _ _ _ _ => cases hpc
  | _ => exact hpc

theorem ConnStep.pc_ne {c : Nat} {x x' : Conn} (h : ConnStep s₀ e s c x x') (hpc : x'.pc ≠ .ended) :
    x.pc ≠ .ended := by
  cases h with
  | quiet hq =>
      intro he
      rw [he] at hq
      cases hq
      exact hpc rfl
  | helloFailed hpc₀ => simp [hpc₀]
  | helloAcked hpc₀ _ => simp [hpc₀]
  | verified hpc₀ _ _ _ => simp [hpc₀]
  | _ => exact hpc

/-! ## Every run -/

/-- The tasks of a session run after its proof only. -/
def State.Polling (s : State) : Prop :=
  ∀ t y, s.tasks t = some y → y.body.polls = true →
    ∃ x, s.conns y.conn = some x ∧ x.link.session.negotiated = true

structure Stages (s : State) : Prop where
  numbered : s.Numbered
  staged : s.Each Staged
  polling : s.Polling

theorem polling_micro (hm : Micro cfg s₀ e s s') (h : Stages s) : s'.Polling := by
  intro t y ht hp
  have hold : ∃ x, s.conns y.conn = some x ∧ x.link.session.negotiated = true := by
    rcases hm.tasks ht hp with ⟨y₀, ht₀, hc, hp₀⟩ | ⟨x, hx, hpc⟩
    · rw [← hc]
      exact h.polling t y₀ ht₀ hp₀
    · exact ⟨x, hx, (h.staged _ x hx).proven hpc.proven⟩
  obtain ⟨x, hx, hn⟩ := hold
  obtain ⟨x', hx', hg⟩ := hm.grows h.numbered hx
  exact ⟨x', hx', hg.negotiated hn⟩

theorem stages_micro (hm : Micro cfg s₀ e s s') (h : Stages s) : Stages s' := by
  refine ⟨hm.numbered h.numbered, hm.each ?_ ?_ ?_ ?_ ?_ h.staged, polling_micro hm h⟩
  · exact fun d device rand _ _ => .new ..
  · exact fun x b hx => hx.of_quiet (.same _)
  · exact fun c x x' _ hs hx => hx.connStep hs
  · exact fun c x _ hpc hx => hx.shake hpc _
  · exact fun x hx => hx.ended

theorem stages_init (t : Nat) : Stages (State.init t) :=
  ⟨State.numbered_init t, fun _ _ h => (by cases h), fun _ _ h => (by cases h)⟩

end Fountainer
