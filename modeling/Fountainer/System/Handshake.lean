import Fountainer.System.Stages

/-!
# What a peer is sent before it has proven itself
-/

namespace Fountainer

/-- Control calls go to sessions that have proven themselves. -/
def provenCalls (s : State) : Step → Bool
  | .api d _ | .dpRead d _ => match s.sessions d with
      | some c => match s.conns c with
          | some x => x.link.session.negotiated
          | none => true
      | none => true
  | _ => true

def isHelloAck (frame : Dict) : Prop := frame.get (py "type") = .str (py "hello_ack")

instance (frame : Dict) : Decidable (isHelloAck frame) := inferInstanceAs (Decidable (_ = _))

/-- The first frame is the `hello_ack`, and before the proof there is no other. -/
structure Announced (x : Conn) : Prop where
  hello : x.pc = .hello → x.link.sent = []
  acked : x.pc = .proof ∨ (∃ b, x.pc = .ackSend b) → x.link.sent ≠ []
  early : x.link.session.negotiated = false →
    x.link.sent.length ≤ 1 ∧ ∀ f ∈ x.link.sent, isHelloAck f
  first : ∀ f, x.link.sent.head? = some f → isHelloAck f
  nonempty : x.link.session.negotiated = true → x.link.sent ≠ []

namespace Announced

theorem of_quiet {x : Conn} {pc : Pc} {code : Option Nat} {req : Bool} (h : Announced x)
    (hq : Quiet x.pc pc) : Announced { x with pc, closeCode := code, closeRequested := req } := by
  obtain ⟨deviceId, link, pc₀, closeCode, closeRequested, proof, shaken⟩ := x
  obtain ⟨hhello, hacked, hearly, hfirst, hnonempty⟩ := h
  refine ⟨fun hpc => hhello (hq.stage.2.2.1 hpc), ?_, hearly, hfirst, hnonempty⟩
  intro hpc
  cases hq with
  | same => exact hacked hpc
  | acked => exact hacked (.inr ⟨_, rfl⟩)
  | rejected => exact hacked (.inr ⟨_, rfl⟩)
  | noHello => simp at hpc
  | noProof => simp at hpc
  | loop => simp at hpc
  | stopped => simp at hpc

theorem of_still {x : Conn} {l : Link} (h : Announced x) (hl : Link.Still x.link l) :
    Announced { x with link := l } := by
  obtain ⟨p, ms, hs⟩ := hl.session
  have hneg : l.session.negotiated = x.link.session.negotiated := by rw [hs]
  refine ⟨?_, ?_, ?_, ?_, ?_⟩
  · simpa [hl.sent] using h.hello
  · simpa [hl.sent] using h.acked
  · simpa [hl.sent, hneg] using h.early
  · simpa [hl.sent] using h.first
  · simpa [hl.sent, hneg] using h.nonempty

theorem start {x : Conn} (h : Announced x) (hn : x.link.session.negotiated = true)
    (hpc : x.pc ≠ .hello) (now : Clock) (call : Call) :
    Announced { x with link := (x.link.start now call).1 } := by
  obtain ⟨seq, id, p, -, hs⟩ := Link.start_session x.link now call
  have hneg : (x.link.start now call).1.session.negotiated = true := by rw [hs]; exact hn
  have hsent := Link.start_sent x.link now call
  have hne : (x.link.start now call).1.sent ≠ [] := by
    rcases hsent with hsent | ⟨f, hsent⟩
    · rw [hsent]
      exact h.nonempty hn
    · simp [hsent]
  refine ⟨fun he => absurd he hpc, fun _ => hne, ?_, ?_, fun _ => hne⟩
  · intro hfalse
    dsimp only at hfalse
    rw [hneg] at hfalse
    cases hfalse
  · intro f hf
    dsimp only at hf
    refine h.first f ?_
    rcases hsent with hsent | ⟨g, hsent⟩
    · rwa [hsent] at hf
    · rw [hsent] at hf
      cases hl : x.link.sent with
      | nil => exact absurd hl (h.nonempty hn)
      | cons a rest =>
          rw [hl] at hf
          exact hf

/-- Nothing is sent between the first frame and the `hello_ack`. -/
theorem hello_failed {x : Conn} {code : Option Nat} (h : Announced x) (hpc : x.pc = .hello)
    (now : Clock) (d : Dict) :
    Announced { x with link := { x.link with session := (x.link.session.hello now d).1 }
                       pc := .closing, closeCode := code } := by
  obtain ⟨cn, kid, key, hs, -⟩ := DeviceSession.hello_session x.link.session now d
  have hsent := h.hello hpc
  have hneg : (x.link.session.hello now d).1.negotiated = x.link.session.negotiated := by rw [hs]
  refine ⟨fun he => (by cases he), ?_, ?_, ?_, ?_⟩
  · rintro (he | ⟨b, he⟩) <;> cases he
  · intro hfalse
    simp [hsent]
  · intro f hf
    simp [hsent] at hf
  · intro hn
    dsimp only at hn
    rw [hneg] at hn
    exact absurd hsent (h.nonempty hn)

theorem hello_acked {x : Conn} {accepted : Bool} (h : Announced x) (hpc : x.pc = .hello) (now : Clock)
    (d : Dict) {ack : Dict} (hack : isHelloAck ack) :
    Announced { x with link := Link.push
                         { x.link with session := (x.link.session.hello now d).1 } ack
                       pc := .ackSend accepted } := by
  have hsent := h.hello hpc
  refine ⟨fun he => (by cases he), ?_, ?_, ?_, ?_⟩
  · intro _
    simp [Link.push]
  · intro _
    simp [Link.push, hsent, hack]
  · intro f hf
    simp only [Link.push, hsent, List.nil_append, List.head?_cons, Option.some.injEq] at hf
    subst hf
    exact hack
  · intro _
    simp [Link.push]

theorem verified {x : Conn} {session : DeviceSession} {d : Dict} (h : Announced x) (hpc : x.pc = .proof) :
    Announced { x with link := { x.link with session := { session with negotiated := true } }
                       pc := .proofReply, proof := some d } := by
  have hne := h.acked (.inl hpc)
  exact ⟨fun he => (by cases he), fun _ => hne, fun hn => (by cases hn), h.first, fun _ => hne⟩

end Announced

/-! ## Runs -/

theorem Origin.negotiated {s₀ s : State} {e : Step} {c : Nat} {x : Conn} {call : Call}
    (ho : Origin s₀ e s c x call) (hx : s.conns c = some x) (hok : provenCalls s₀ e = true)
    (h : Stages s) : x.link.session.negotiated = true := by
  cases ho with
  | api he hd hs =>
      subst he hs
      simpa only [provenCalls, hd, hx] using hok
  | dpRead he hd hs =>
      subst he hs
      simpa only [provenCalls, hd, hx] using hok
  | task ht hc hp hbody =>
      obtain ⟨y, hy, hn⟩ := h.polling _ _ ht hp
      rw [hc, hx] at hy
      cases hy
      exact hn
  | answer hpc hbody hmsg => exact (h.staged c x hx).proven hpc.proven

theorem Announced.connStep {s₀ s : State} {e : Step} {c : Nat} {x x' : Conn}
    (hstep : ConnStep s₀ e s c x x') (hx : s.conns c = some x) (hok : provenCalls s₀ e = true)
    (h : Stages s) (ha : Announced x) : Announced x' := by
  cases hstep with
  | quiet hq => exact ha.of_quiet hq
  | helloFailed hpc => exact ha.hello_failed hpc _ _
  | helloAcked hpc hack =>
      exact ha.hello_acked hpc _ _ (DeviceSession.hello_ack (hack.imp (Prod.ext rfl) (Prod.ext rfl)))
  | verified hpc hs he hv => exact ha.verified hpc
  | start ho =>
      have hn := ho.negotiated hx hok h
      exact ha.start hn (fun hpc => ha.nonempty hn (ha.hello hpc)) _ _
  | sendDone k ok => exact ha.of_still (Link.sendDone_still ..)
  | expire k => exact ha.of_still (Link.expire_still ..)
  | wake k raises => exact ha.of_still (Link.wake_still ..)
  | dispatch hpc he => exact ha.of_still (Link.dispatch_still ..)

theorem announced_micro {cfg : Config} {s₀ s s' : State} {e : Step} (hok : provenCalls s₀ e = true)
    (hm : Micro cfg s₀ e s s') (hs : Stages s) (h : s.Each Announced) : s'.Each Announced := by
  refine hm.each ?_ ?_ ?_ ?_ ?_ h
  · intro d device rand _ _
    refine ⟨fun _ => rfl, ?_, ?_, ?_, fun hn => (by cases hn)⟩
    · rintro (he | ⟨b, he⟩) <;> cases he
    · exact fun _ => ⟨Nat.zero_le _, fun f hf => (by cases hf)⟩
    · exact fun f hf => (by cases hf)
  · exact fun x b hx => ⟨hx.hello, hx.acked, hx.early, hx.first, hx.nonempty⟩
  · exact fun c x x' hx hstep ha => ha.connStep hstep hx hok hs
  · intro c x hx hpc ha
    have hne := ha.nonempty ((hs.staged c x hx).proven (hpc ▸ .proofReply))
    exact ⟨fun he => (by cases he), fun _ => hne, ha.early, ha.first, fun _ => hne⟩
  · intro x hx
    refine ⟨fun he => (by cases he), ?_, hx.early, hx.first, hx.nonempty⟩
    rintro (he | ⟨b, he⟩) <;> cases he

structure Orderly (s : State) : Prop where
  stages : Stages s
  announced : s.Each Announced

theorem orderly_after {cfg : Config} {t : Nat} {es : List Step}
    (hes : State.Along cfg provenCalls t es) : Orderly (State.after cfg t es) := by
  refine invariant_of_micro ?_ ?_ hes
  · exact ⟨stages_init t, fun c x hx => (by cases hx)⟩
  · exact fun s₀ e s s' hok _ hm h =>
      ⟨stages_micro hm h.stages, announced_micro hok hm h.stages h.announced⟩

/-- The first frame is `hello_ack`, and a peer that has not proven itself is sent nothing else. -/
def HelloAckOnly (x : Conn) : Prop :=
  (x.link.session.negotiated = false → ∀ f ∈ x.link.sent, isHelloAck f) ∧
    ∀ f ∈ x.link.sent.head?, isHelloAck f

instance (x : Conn) : Decidable (HelloAckOnly x) := by
  unfold HelloAckOnly
  infer_instance

/-- When control calls wait for the session proof, `hello_ack` is the first frame of every connection
and the only one before the proof. -/
theorem hello_ack_only (cfg : Config) (t : Nat) (es : List Step)
    (hes : State.Along cfg provenCalls t es) : (State.after cfg t es).Each HelloAckOnly := by
  intro c x hx
  have ha := (orderly_after hes).announced c x hx
  exact ⟨fun hn => (ha.early hn).2, ha.first⟩

/-- A command after the session proof. -/
theorem hello_ack_only_sample :
    State.Along sampleConfig provenCalls 0
        (sampleHandshake 0 [7] "n" ++ [.api (py "fon-1") sampleCommand]) ∧
      (State.after sampleConfig 0
        (sampleHandshake 0 [7] "n" ++ [.api (py "fon-1") sampleCommand])).Each HelloAckOnly :=
  have h : State.Along sampleConfig provenCalls 0
      (sampleHandshake 0 [7] "n" ++ [.api (py "fon-1") sampleCommand]) := by decide +kernel
  ⟨h, hello_ack_only _ _ _ h⟩

/-- A control call meets a session that waits for its hello, and one that waits for its proof: the
first gets a `dp_read` before the `hello_ack`, the second a signed command before the proof. -/
theorem sent_before_proof :
    ¬ (State.after sampleConfig 0
        [.accept (py "fon-1") [7], .dpRead (py "fon-1") configNames]).Each HelloAckOnly ∧
    ¬ (State.after sampleConfig 0
        [.accept (py "fon-1") [7], .recv 0 (sampleHello "n"), .resume 0 true,
         .api (py "fon-1") sampleCommand]).Each HelloAckOnly := by
  constructor
  · intro h
    exact absurd (h.all 0) (by decide +kernel)
  · intro h
    exact absurd (h.all 0) (by decide +kernel)

end Fountainer
