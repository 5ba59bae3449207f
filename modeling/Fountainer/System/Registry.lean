import Fountainer.System.Invariant

/-!
# The registry of sessions and the log of callbacks
-/

namespace Fountainer

variable {cfg : Config} {s₀ s s' : State} {e : Step}

/-! ## The registry -/

theorem Micro.sessions (hm : Micro cfg s₀ e s s') :
    s'.sessions = s.sessions ∨
      (∃ d rand, e = .accept d rand ∧ s = s₀ ∧ s' = s₀.accept cfg d rand) ∨
      ∃ c x, e.handler = some c ∧ s.conns c = some x ∧ s.sessions x.deviceId = some c ∧
        s'.sessions = Function.update s.sessions x.deviceId none ∧
        s'.conns c = some { x with pc := .ended } ∧ (s'.deviceState x.deviceId).online = false := by
  cases hm with
  | tick he => exact .inl rfl
  | accept he => exact .inr (.inl ⟨_, _, he, rfl, rfl⟩)
  | deviceSign he => exact .inl rfl
  | conn hx hnow ha hs => exact .inl rfl
  | connected hx hpc hc => exact .inl (State.called_sessions ..)
  | finished hx hpc he =>
      rename_i c x
      rw [State.finish_sessions _ cfg hx]
      by_cases hd : s.sessions x.deviceId = some c
      · have hoff : ((s.finish cfg c).deviceState x.deviceId).online = false := by
          rw [State.finish_current _ _ hx hd, State.called_deviceState, State.setShadow_self]
          rfl
        rw [if_pos hd, State.finish_conns _ _ hx]
        exact .inr (.inr ⟨c, x, he, hx, hd, rfl, State.setConn_self .., hoff⟩)
      · rw [if_neg hd]
        exact .inl rfl
  | called hx hcall => exact .inl (State.called_sessions ..)
  | stored => exact .inl rfl
  | task => exact .inl rfl
  | spawned => exact .inl rfl

theorem Micro.conns (hm : Micro cfg s₀ e s s') {c : Nat} {x' : Conn} (hx' : s'.conns c = some x') :
    (∃ x, s.conns c = some x ∧ x.deviceId = x'.deviceId) ∨
      ∃ d rand, e = .accept d rand ∧ c = s.nextConn ∧ x'.deviceId = d ∧ s'.sessions d = some c := by
  have hupdate := hm.update c
  rw [hx'] at hupdate
  cases hupdate with
  | same hx => exact .inl ⟨x', hx, rfl⟩
  | new he hc hd hs => exact .inr ⟨_, _, he, hc, rfl, hs⟩
  | replaced hx => exact .inl ⟨_, hx, rfl⟩
  | step hx h => exact .inl ⟨_, hx, h.grows.deviceId.symm⟩
  | shaken hx hpc he => exact .inl ⟨_, hx, rfl⟩
  | ended hx hpc he hs => exact .inl ⟨_, hx, rfl⟩

/-- Inside a step every connection is one of those before the step. -/
def State.Inherits (s₀ : State) (e : Step) (s : State) : Prop :=
  e.handler ≠ none → ∀ c x, s.conns c = some x → ∃ x₀, s₀.conns c = some x₀ ∧ x₀.deviceId = x.deviceId

theorem State.Inherits.refl (s : State) (e : Step) : s.Inherits e s := fun _ _ x hx => ⟨x, hx, rfl⟩

theorem Micro.inherits (hm : Micro cfg s₀ e s s') (h : s₀.Inherits e s) : s₀.Inherits e s' := by
  intro hne c x hx
  rcases hm.conns hx with ⟨x₁, hx₁, hd⟩ | ⟨d, rand, rfl, -⟩
  · obtain ⟨x₀, hx₀, hd₀⟩ := h hne c x₁ hx₁
    exact ⟨x₀, hx₀, hd₀.trans hd⟩
  · exact absurd rfl hne

/-! ## The log of callbacks -/

/-- The callbacks that have run on connection `c`. -/
def State.callsOf (s : State) (c : Nat) : List HookCall := s.hooks.filter fun call => call.conn = c

def HookCall.runs (h : Hook) (call : HookCall) : Bool := callbackFor call.key = some h

/-- The runs of callback `h` on connection `c`. -/
def State.ran (s : State) (h : Hook) (c : Nat) : List HookCall := (s.callsOf c).filter (·.runs h)

theorem State.callsOf_append {call : HookCall} (h : s'.hooks = s.hooks ++ [call]) (c : Nat) :
    s'.callsOf c = s.callsOf c ++ if call.conn = c then [call] else [] := by
  unfold callsOf
  rw [h, List.filter_append]
  by_cases hc : call.conn = c <;> simp [hc]

theorem State.callsOf_congr (h : s'.hooks = s.hooks) (c : Nat) : s'.callsOf c = s.callsOf c := by
  unfold callsOf
  rw [h]

theorem State.accept_hooks (cfg : Config) (s : State) (d : Str) (rand : Bytes) :
    (s.accept cfg d rand).hooks = s.hooks := by
  rcases s.accept_cases cfg d rand with he | ⟨device, s₁, hd, hs₁, he⟩
  · rw [he]
  · have hs : s₁.hooks = s.hooks := by
      rcases hs₁ with rfl | ⟨old, x₁, hold, rfl⟩
      · rfl
      · exact setConn_hooks ..
    rw [he]
    exact hs

theorem State.finish_hooks (cfg : Config) {c : Nat} {x : Conn} (hx : s.conns c = some x) :
    (s.finish cfg c).hooks =
      if s.sessions x.deviceId = some c then
        s.hooks ++ [{ conn := c, key := py "__disconnect__", cause := .lifecycle, msg := [] }]
      else s.hooks := by
  by_cases hd : s.sessions x.deviceId = some c
  · rw [finish_current _ _ hx hd, called_hooks, if_pos hd]
    rfl
  · rw [finish_replaced _ _ hx hd, setConn_hooks, if_neg hd]

/-- Callbacks run on connections that exist. -/
def State.Known (s : State) : Prop := ∀ call ∈ s.hooks, ∃ x, s.conns call.conn = some x

theorem State.Known.callsOf_new (h : s.Known) (hn : s.Numbered) : s.callsOf s.nextConn = [] := by
  refine List.filter_eq_nil_iff.mpr fun call hcall hc => ?_
  obtain ⟨x, hx⟩ := h call hcall
  have hlt := hn _ x hx
  rw [of_decide_eq_true hc] at hlt
  exact Nat.lt_irrefl _ hlt

theorem Micro.hooks (hm : Micro cfg s₀ e s s') :
    s'.hooks = s.hooks ∨
      ∃ call x, s.conns call.conn = some x ∧ s'.hooks = s.hooks ++ [call] ∧
        (call.cause = .lifecycle ∨ ∃ key h, Invoked s₀ e s call.conn x key h call.cause call.msg ∧
          call.key = key) := by
  cases hm with
  | tick he => exact .inl rfl
  | accept he => exact .inl (State.accept_hooks ..)
  | deviceSign he => exact .inl rfl
  | conn hx hnow ha hs => exact .inl rfl
  | connected hx hpc hc => exact .inr ⟨_, _, hx, State.called_hooks .., .inl rfl⟩
  | finished hx hpc he =>
      rename_i c x
      rw [State.finish_hooks cfg hx]
      by_cases hd : s.sessions x.deviceId = some c
      · rw [if_pos hd]
        exact .inr ⟨_, _, hx, rfl, .inl rfl⟩
      · rw [if_neg hd]
        exact .inl rfl
  | called hx hcall => exact .inr ⟨_, _, hx, State.called_hooks .., .inr ⟨_, _, hcall, rfl⟩⟩
  | stored => exact .inl rfl
  | task => exact .inl rfl
  | spawned => exact .inl rfl

theorem Micro.known (hm : Micro cfg s₀ e s s') (hn : s.Numbered) (h : s.Known) : s'.Known := by
  intro call hcall
  have hold : ∃ x, s.conns call.conn = some x := by
    rcases hm.hooks with hh | ⟨call', x, hx, hh, -⟩
    · rw [hh] at hcall
      exact h call hcall
    · rw [hh] at hcall
      rcases List.mem_append.mp hcall with hcall | hcall
      · exact h call hcall
      · rw [List.mem_singleton.mp hcall]
        exact ⟨x, hx⟩
  obtain ⟨x, hx⟩ := hold
  obtain ⟨x', hx', -⟩ := hm.grows hn hx
  exact ⟨x', hx'⟩

end Fountainer
