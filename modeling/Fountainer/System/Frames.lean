import Fountainer.System.Invariant
import Fountainer.System.Lemmas.Accepted

/-!
# Every signed frame is accepted
-/

namespace Fountainer

/-- Control calls name no envelope field in their bodies. -/
def cleanBodies (_ : State) : Step → Bool
  | .api _ call => call.body.all fun kv => decide (kv.1 ∉ envelopeFields)
  | _ => true

theorem cleanBody_of_api {s : State} {d : Str} {call : Call}
    (h : cleanBodies s (.api d call) = true) : call.CleanBody := by
  intro k hk
  obtain ⟨kv, hkv, rfl⟩ := List.mem_map.mp hk
  simpa using List.all_eq_true.mp h kv hkv

/-- With clean control calls, every call has a clean body. -/
theorem Origin.cleanBody {s₀ s : State} {e : Step} {c : Nat} {x : Conn} {call : Call}
    (h : Origin s₀ e s c x call) (hok : cleanBodies s₀ e = true) : call.CleanBody := by
  cases h with
  | api he hd hs =>
      subst he
      exact cleanBody_of_api hok
  | dpRead he hd hs => exact cleanBody_of_decide rfl
  | task ht hc hp hbody => exact hbody
  | answer hpc hbody hmsg => exact hbody

/-- The signed frames are in order, and before the hello there is no kid. -/
structure Acceptable (x : Conn) : Prop where
  frames : Accepted x.link
  kid : x.pc = .hello → x.link.session.kid = none

theorem Accepted.still {l l' : Link} (h : Accepted l) (hs : Link.Still l l') : Accepted l' := by
  refine h.congr hs.sent (hs.params _) ?_
  obtain ⟨p, ms, hsession⟩ := hs.session
  rw [hsession]

theorem isControlFrame_helloAck {ack : Dict} (h : ack.get (py "type") = .str (py "hello_ack")) :
    isControlFrame ack = false := by
  rw [isControlFrame_of_type h]
  decide

theorem Acceptable.connStep {s₀ s : State} {e : Step} {c : Nat} {x x' : Conn}
    (hok : cleanBodies s₀ e = true) (h : ConnStep s₀ e s c x x') (hx : Acceptable x) :
    Acceptable x' := by
  obtain ⟨hframes, hkid⟩ := hx
  have hstill : ∀ l', Link.Still x.link l' → Acceptable { x with link := l' } := by
    intro l' hl
    obtain ⟨p, ms, hs⟩ := hl.session
    refine ⟨hframes.still hl, fun hpc => ?_⟩
    dsimp only
    rw [hs]
    exact hkid hpc
  cases h with
  | quiet hq =>
      refine ⟨hframes, fun hpc => hkid ?_⟩
      dsimp only at hpc
      subst hpc
      generalize x.pc = pc at hq
      cases hq
      rfl
  | helloFailed hpc =>
      exact ⟨.of_no_control (hframes.kid_of_control (hkid hpc)), fun h => by cases h⟩
  | helloAcked hpc hack =>
      rename_i d ack accepted
      have htype := DeviceSession.hello_ack (hack.imp (Prod.ext rfl) (Prod.ext rfl))
      refine ⟨.of_no_control fun f hf => ?_, fun h => by cases h⟩
      simp only [Link.push, List.mem_append, List.mem_singleton] at hf
      rcases hf with hf | rfl
      · exact hframes.kid_of_control (hkid hpc) f hf
      · exact isControlFrame_helloAck htype
  | verified hpc hs he hv =>
      obtain ⟨replay, rfl⟩ := DeviceSession.verifyC2s_session hv
      exact ⟨hframes.congr rfl rfl (Nat.le_refl _), fun h => by cases h⟩
  | start ho =>
      obtain ⟨seq, id, p, hle, hs⟩ := Link.start_session x.link s.now ‹Call›
      refine ⟨hframes.start _ _ (ho.cleanBody hok).type, fun hpc => ?_⟩
      dsimp only
      rw [hs]
      exact hkid hpc
  | sendDone k ok => exact hstill _ (Link.sendDone_still ..)
  | expire k => exact hstill _ (Link.expire_still ..)
  | wake k raises => exact hstill _ (Link.wake_still ..)
  | dispatch hpc he => exact hstill _ (Link.dispatch_still ..)

theorem acceptable_micro {cfg : Config} {s₀ s s' : State} {e : Step} (hok : cleanBodies s₀ e = true)
    (hm : Micro cfg s₀ e s s') (h : s.Each Acceptable) : s'.Each Acceptable := by
  refine hm.each ?_ ?_ ?_ ?_ ?_ h
  · exact fun d device rand _ _ => ⟨.of_no_control (by simp [Conn.new]), fun _ => rfl⟩
  · exact fun x b hx => ⟨hx.frames, hx.kid⟩
  · exact fun c x x' _ hs hx => hx.connStep hok hs
  · exact fun c x _ _ hx => ⟨hx.frames.congr rfl rfl (Nat.le_refl _), fun h => by cases h⟩
  · exact fun x hx => ⟨hx.frames, fun h => by cases h⟩

/-- Whatever the device receives of the frames of a connection, in order, it accepts every signed
one: none fails the MAC, and none is a replay. -/
theorem signed_frames_accepted (cfg : Config) (t : Nat) (es : List Step)
    (hes : State.Along cfg cleanBodies t es) (c : Nat) (x : Conn)
    (hx : (State.after cfg t es).conns c = some x) (got : List Dict)
    (hgot : got.Sublist x.link.sent) :
    acceptsAll (x.link.session.params .s2c) {} got = true := by
  have hinv : (State.after cfg t es).Each Acceptable := by
    refine invariant_of_micro ?_ (fun s₀ e s s' hok _ hm => acceptable_micro hok hm) hes
    intro c x hx
    cases hx
  exact (hinv c x hx).frames.accepts hgot

/-- Two commands after a session proof. -/
theorem signed_frames_accepted_sample :
    ∃ x, (State.after sampleConfig 0 (sampleHandshake 0 [7] "n" ++
        [.api (py "fon-1") sampleCommand, .api (py "fon-1") sampleCommand])).conns 0 = some x ∧
      acceptsAll (x.link.session.params .s2c) {} x.link.sent = true := by
  obtain ⟨x, hx⟩ := Option.isSome_iff_exists.mp
    (by decide +kernel : ((State.after sampleConfig 0 (sampleHandshake 0 [7] "n" ++
      [.api (py "fon-1") sampleCommand, .api (py "fon-1") sampleCommand])).conns 0).isSome = true)
  exact ⟨x, hx, signed_frames_accepted _ _ _ (by decide +kernel) 0 x hx _ (.refl _)⟩

end Fountainer
