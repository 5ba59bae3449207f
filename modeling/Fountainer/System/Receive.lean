import Fountainer.System.Stages

/-!
# Frames that end the receive loop

`_recv_loop` goes on after a frame exactly when nothing raises: neither parsing nor `_dispatch` nor the
callback.
-/

namespace Fountainer

/-! ## Sessions after their proof -/

/-- After the proof the session can sign. -/
def Conn.CanSign (x : Conn) : Prop := x.pc.Proven → (x.link.session.params .c2s).Ready

variable {cfg : Config} {s₀ s s' : State} {e : Step}

theorem Conn.CanSign.connStep {c : Nat} {x x' : Conn} (hs : ConnStep s₀ e s c x x') (h : x.CanSign) :
    x'.CanSign := by
  have hstill : ∀ l, Link.Still x.link l → Conn.CanSign { x with link := l } := by
    intro l hl hpc
    rw [hl.params]
    exact h hpc
  cases hs with
  | quiet hq => exact fun hpc => h (hq.stage.2.1 hpc)
  | helloFailed hpc => exact fun hpc => by cases hpc
  | helloAcked hpc hack => exact fun hpc => by cases hpc
  | verified hpc hs he hv =>
      obtain ⟨hmac, n, hn, hlt, rfl⟩ := DeviceSession.verifyC2s_true hv
      exact fun _ => .of_verify hmac
  | start ho =>
      obtain ⟨seq, id, p, -, hsession⟩ := Link.start_session x.link s.now ‹Call›
      intro hpc
      rw [hsession]
      exact h hpc
  | sendDone k ok => exact hstill _ (Link.sendDone_still ..)
  | expire k => exact hstill _ (Link.expire_still ..)
  | wake k raises => exact hstill _ (Link.wake_still ..)
  | dispatch hpc he => exact hstill _ (Link.dispatch_still ..)

theorem canSign_micro (hm : Micro cfg s₀ e s s') (h : s.Each Conn.CanSign) : s'.Each Conn.CanSign := by
  refine hm.each ?_ ?_ ?_ ?_ ?_ h
  · exact fun d device rand _ _ hpc => by cases hpc
  · exact fun x b hx => hx
  · exact fun c x x' _ hs hx => hx.connStep hs
  · exact fun c x _ hpc hx _ => hx (hpc ▸ .proofReply)
  · exact fun x hx hpc => by cases hpc

/-! ## The receive loop -/

/-- The receive loop of connection `c` waits for the next frame, once a message of the callback is sent. -/
def LoopGoesOn (cfg : Config) (s : State) (c : Nat) : Prop :=
  ∃ x fired, (s.step cfg (.resume c true)).conns c = some x ∧ x.pc = .live .idle fired

theorem loopGoesOn_iff {c : Nat} {x : Conn} {l : Loop} {fired : Bool} (hx : s.conns c = some x)
    (hpc : x.pc = .live l fired) : LoopGoesOn cfg s c ↔ l ≠ .over := by
  match l with
  | .idle =>
      refine iff_of_true ⟨x, fired, ?_, hpc⟩ (by decide)
      simp only [State.step, State.resume, hx, hpc]
  | .replying =>
      refine iff_of_true ⟨{ x with pc := .live .idle fired }, fired, ?_, rfl⟩ (by decide)
      simp only [State.step, State.resume, hx, hpc]
      exact State.setPc_self hx _
  | .over =>
      refine iff_of_false ?_ (by decide)
      rintro ⟨x', fired', hx', hpc'⟩
      simp only [State.step, State.resume, hx, hpc] at hx'
      cases hx'
      rw [hpc] at hpc'
      cases hpc'

/-- The loop ends exactly when the dispatch raises. -/
theorem loopGoesOn_dispatched {c : Nat} {x : Conn} {fired : Bool} (hpc : x.pc = .live .idle fired) {msg : Json}
    (hkept : State.Kept (s.dispatchOn cfg c msg).1 c x) :
    LoopGoesOn cfg (s.recvMessage cfg c fired (.json msg)) c ↔ (s.dispatchOn cfg c msg).2 ≠ .raised := by
  obtain ⟨x', hx', hpc'⟩ := hkept
  simp only [State.recvMessage]
  generalize s.dispatchOn cfg c msg = out at hx' ⊢
  obtain ⟨s', r⟩ := out
  cases r with
  | done => exact (loopGoesOn_iff hx' (hpc'.trans hpc)).trans (by simp)
  | suspended => exact (loopGoesOn_iff (State.setPc_self hx' _) rfl).trans (by simp)
  | raised => exact (loopGoesOn_iff (State.setPc_self hx' _) rfl).trans (by simp)

/-- In every run: the loop goes on after a frame exactly when the frame is processed. -/
theorem frame_ends_loop_iff (cfg : Config) (t : Nat) (es : List Step) (c : Nat) (x : Conn) (fired : Bool)
    (hx : (State.after cfg t es).conns c = some x) (hpc : x.pc = .live .idle fired) (frame : Frame) :
    LoopGoesOn cfg (State.after cfg t (es ++ [.recv c frame])) c ↔
      frame.processed cfg x.link.session (State.after cfg t es).now = true := by
  have hsign : (State.after cfg t es).Each Conn.CanSign :=
    always_of_micro (fun _ _ h => by cases h) fun _ _ _ _ _ hm => canSign_micro hm
  have hready : (x.link.session.params .s2c).Ready := (hsign c x hx (hpc ▸ .live _ _)).direction rfl
  rw [State.after_snoc]
  generalize State.after cfg t es = s at hx ⊢
  have hstep : s.step cfg (.recv c frame) = s.recvMessage cfg c fired frame := by
    simp only [State.step, State.recv, hx, hpc]
  rw [hstep]
  cases frame with
  | invalid => exact (loopGoesOn_iff hx hpc).trans (by simp [Frame.processed])
  | unparsable => exact (loopGoesOn_iff (State.setPc_self hx _) rfl).trans (by simp [Frame.processed])
  | json msg =>
      have hkept : State.Kept (s.dispatchOn cfg c msg).1 c x :=
        (State.dispatchOn_chain hx rfl (.inr ⟨fired, hpc⟩) rfl fun d key hmsg hkey => by
          simpa [State.lookedUp, hx, hpc] using hkey).2
      rw [loopGoesOn_dispatched hpc hkept]
      cases msg with
      | obj d => simp [State.dispatchOn_raised_iff hx hready]
      | _ =>
          refine iff_of_false (not_not.mpr ?_) (by simp [Frame.processed])
          simp [State.dispatchOn, hx, Link.dispatch, DeviceSession.dispatch, Json.asDict]

def sampleFrames : List Frame :=
  [.invalid, .json (.obj []), .json (.obj [(py "type", .str (py "heartbeat"))]),
   .json (.obj [(py "type", .str (py "dp_report")), (py "dp", .obj [(py "a", .arr [])])]),
   .json (.obj [(py "in_reply_to", .str (py "s-7")), (py "type", .null)])]

theorem frame_ends_loop_sample :
    sampleFrames.Forall fun frame => LoopGoesOn sampleConfig
      (State.after sampleConfig 0 (sampleHandshake 0 [7] "n" ++ [.recv 0 frame])) 0 := by
  have hrun : ((State.after sampleConfig 0 (sampleHandshake 0 [7] "n")).conns 0).any (fun x =>
      x.pc = .live .idle false ∧ sampleFrames.all fun frame => frame.processed sampleConfig x.link.session
        (State.after sampleConfig 0 (sampleHandshake 0 [7] "n")).now) = true := by
    decide +kernel
  obtain ⟨x, hx, hall⟩ := (Option.any_eq_true _ _).mp hrun
  simp only [Bool.decide_and, Bool.and_eq_true, decide_eq_true_eq, List.all_eq_true] at hall
  refine List.forall_iff_forall_mem.mpr fun frame hframe => ?_
  exact (frame_ends_loop_iff sampleConfig 0 _ 0 x false hx hall.1 frame).mpr (hall.2 frame hframe)

/-- A frame `[]` ends the loop. -/
theorem array_ends_loop :
    ((State.after sampleConfig 0 (sampleHandshake 0 [7] "n")).conns 0).any
      (fun x => x.pc = .live .idle false) = true ∧
    ¬ LoopGoesOn sampleConfig (State.after sampleConfig 0
      (sampleHandshake 0 [7] "n" ++ [.recv 0 (.json (.arr []))])) 0 := by
  have hrun : ((State.after sampleConfig 0 (sampleHandshake 0 [7] "n")).conns 0).any
        (fun x => x.pc = .live .idle false) = true ∧
      ((State.after sampleConfig 0 (sampleHandshake 0 [7] "n" ++
        [.recv 0 (.json (.arr [])), .resume 0 true])).conns 0).all (fun x => x.pc = .live .over false) = true := by
    decide +kernel
  obtain ⟨hidle, hover⟩ := hrun
  refine ⟨hidle, ?_⟩
  rintro ⟨x, fired, hx, hpc⟩
  rw [show (sampleHandshake 0 [7] "n" ++ [.recv 0 (.json (.arr [])), .resume 0 true]) =
    (sampleHandshake 0 [7] "n" ++ [.recv 0 (.json (.arr []))]) ++ [.resume 0 true] from rfl, State.after_snoc,
    hx] at hover
  simp [hpc] at hover

/-- The other ways: a list as type or as reference, a text as datapoints, nesting that is too deep. -/
example :
    ([.json (.obj [(py "type", .arr [])]), .json (.obj [(py "in_reply_to", .obj [(py "a", .null)])]),
      .json (.obj [(py "type", .str (py "dp_report")), (py "dp", .str (py "x"))]), .unparsable] : List Frame).all
      (fun frame => ((State.after sampleConfig 0 (sampleHandshake 0 [7] "n" ++ [.recv 0 frame])).conns 0).any
        fun x => x.pc = .live .over false) = true := by
  decide +kernel

end Fountainer
