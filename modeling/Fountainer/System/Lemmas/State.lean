import Fountainer.System.Micro

/-!
# The fields of an updated state
-/

namespace Fountainer

namespace State

variable (s : State) (c : Nat) (x : Conn) (d : Str) (st : Shadow) (t : Nat) (y : Task)

@[simp] theorem setConn_self : (s.setConn c x).conns c = some x := by simp [setConn]

theorem setConn_ne {c' : Nat} (h : c' ≠ c) : (s.setConn c x).conns c' = s.conns c' := by
  simp [setConn, h]

@[simp] theorem setConn_now : (s.setConn c x).now = s.now := rfl
@[simp] theorem setConn_sessions : (s.setConn c x).sessions = s.sessions := rfl
@[simp] theorem setConn_nextConn : (s.setConn c x).nextConn = s.nextConn := rfl
@[simp] theorem setConn_deviceState : (s.setConn c x).deviceState = s.deviceState := rfl
@[simp] theorem setConn_tasks : (s.setConn c x).tasks = s.tasks := rfl
@[simp] theorem setConn_hooks : (s.setConn c x).hooks = s.hooks := rfl
@[simp] theorem setConn_deviceSigned : (s.setConn c x).deviceSigned = s.deviceSigned := rfl

@[simp] theorem setShadow_self : (s.setShadow d st).deviceState d = st := by simp [setShadow]

theorem setShadow_ne {d' : Str} (h : d' ≠ d) :
    (s.setShadow d st).deviceState d' = s.deviceState d' := by simp [setShadow, h]

@[simp] theorem setTask_self : (s.setTask t y).tasks t = some y := by simp [setTask]

theorem setTask_ne {t' : Nat} (h : t' ≠ t) : (s.setTask t y).tasks t' = s.tasks t' := by
  simp [setTask, h]

theorem setConn_cases {c' : Nat} {x' : Conn} (h : (s.setConn c x).conns c' = some x') :
    (c' = c ∧ x' = x) ∨ (c' ≠ c ∧ s.conns c' = some x') := by
  by_cases hc : c' = c
  · subst hc
    rw [setConn_self] at h
    exact .inl ⟨rfl, by injection h with h; exact h.symm⟩
  · rw [setConn_ne s c x hc] at h
    exact .inr ⟨hc, h⟩

theorem setTask_cases {t' : Nat} {y' : Task} (h : (s.setTask t y).tasks t' = some y') :
    (t' = t ∧ y' = y) ∨ (t' ≠ t ∧ s.tasks t' = some y') := by
  by_cases ht : t' = t
  · subst ht
    rw [setTask_self] at h
    exact .inl ⟨rfl, by injection h with h; exact h.symm⟩
  · rw [setTask_ne s t y ht] at h
    exact .inr ⟨ht, h⟩

/-! ## Callbacks -/

section Called

variable (key : Str) (h : Hook) (cause : Cause) (msg : Dict)

/-- A callback changes the shadow of its device, the record of callbacks and the tasks. -/
theorem called_eq : ∃ tasks next, s.called c d key h cause msg st =
    { s.setShadow d st with
      hooks := s.hooks ++ [{ conn := c, key, cause, msg }], tasks := tasks, nextTask := next } := by
  unfold called
  dsimp only
  split
  · exact ⟨_, _, rfl⟩
  · exact ⟨_, _, rfl⟩

@[simp] theorem called_conns : (s.called c d key h cause msg st).conns = s.conns := by
  obtain ⟨tasks, next, heq⟩ := called_eq s c d st key h cause msg
  rw [heq]
  rfl

@[simp] theorem called_now : (s.called c d key h cause msg st).now = s.now := by
  obtain ⟨tasks, next, heq⟩ := called_eq s c d st key h cause msg
  rw [heq]
  rfl

@[simp] theorem called_sessions : (s.called c d key h cause msg st).sessions = s.sessions := by
  obtain ⟨tasks, next, heq⟩ := called_eq s c d st key h cause msg
  rw [heq]
  rfl

@[simp] theorem called_nextConn : (s.called c d key h cause msg st).nextConn = s.nextConn := by
  obtain ⟨tasks, next, heq⟩ := called_eq s c d st key h cause msg
  rw [heq]
  rfl

@[simp] theorem called_deviceSigned :
    (s.called c d key h cause msg st).deviceSigned = s.deviceSigned := by
  obtain ⟨tasks, next, heq⟩ := called_eq s c d st key h cause msg
  rw [heq]
  rfl

@[simp] theorem called_deviceState :
    (s.called c d key h cause msg st).deviceState = (s.setShadow d st).deviceState := by
  obtain ⟨tasks, next, heq⟩ := called_eq s c d st key h cause msg
  rw [heq]

@[simp] theorem called_hooks :
    (s.called c d key h cause msg st).hooks = s.hooks ++ [{ conn := c, key, cause, msg }] := by
  obtain ⟨tasks, next, heq⟩ := called_eq s c d st key h cause msg
  rw [heq]

theorem callback_quiet {cfg : Config} (hx : s.conns c = some x)
    (he : (runHook cfg h (s.deviceState x.deviceId) x.link.session s.now msg).err = none)
    (hr : (runHook cfg h (s.deviceState x.deviceId) x.link.session s.now msg).reply = none) :
    s.callback cfg c key h cause msg = (s.called c x.deviceId key h cause msg
      (runHook cfg h (s.deviceState x.deviceId) x.link.session s.now msg).shadow, .done) := by
  simp only [callback, hx, he, hr]

theorem called_tasks {t' : Nat} {y' : Task}
    (ht : (s.called c d key h cause msg st).tasks t' = some y') :
    s.tasks t' = some y' ∨ (h = .onConnect ∧ y'.conn = c ∧ y'.body.paused = false) := by
  unfold called at ht
  dsimp only at ht
  split at ht
  · rename_i hh
    simp only [spawnTasks, addTask] at ht
    rcases setTask_cases _ _ _ ht with ⟨-, rfl⟩ | ⟨-, ht⟩
    · exact .inr ⟨hh, rfl, rfl⟩
    · rcases setTask_cases _ _ _ ht with ⟨-, rfl⟩ | ⟨-, ht⟩
      · exact .inr ⟨hh, rfl, rfl⟩
      · rcases setTask_cases _ _ _ ht with ⟨-, rfl⟩ | ⟨-, ht⟩
        · exact .inr ⟨hh, rfl, rfl⟩
        · exact .inl ht
  · exact .inl ht

end Called

/-! ## The end of a handler -/

/-- `finish` of a connection that is not the current session of its device. -/
theorem finish_replaced (cfg : Config) {c : Nat} {x : Conn} (hx : s.conns c = some x)
    (hd : s.sessions x.deviceId ≠ some c) :
    s.finish cfg c = s.setConn c { x with pc := .ended } := by
  simp only [finish, hx, setConn_sessions]
  exact if_neg hd

/-- `finish` of the current session of its device. -/
theorem finish_current (cfg : Config) {c : Nat} {x : Conn} (hx : s.conns c = some x)
    (hd : s.sessions x.deviceId = some c) :
    s.finish cfg c =
      ({ s.setConn c { x with pc := .ended } with
          sessions := Function.update s.sessions x.deviceId none }).called c x.deviceId
        (py "__disconnect__") .onDisconnect .lifecycle []
        (onDisconnect (s.deviceState x.deviceId) s.now).shadow := by
  have hkey : callbackFor (py "__disconnect__") = some .onDisconnect := by decide
  simp only [finish, hx, setConn_sessions, hkey]
  refine (if_pos hd).trans ?_
  have hconn : ({ s.setConn c { x with pc := .ended } with
      sessions := Function.update s.sessions x.deviceId none } : State).conns c
      = some { x with pc := .ended } := setConn_self ..
  exact congrArg Prod.fst (callback_quiet _ c { x with pc := .ended } (py "__disconnect__")
    .onDisconnect .lifecycle [] hconn rfl rfl)

theorem finish_now (cfg : Config) (c : Nat) : (s.finish cfg c).now = s.now := by
  cases hx : s.conns c with
  | none => simp only [finish, hx]
  | some x =>
      by_cases hd : s.sessions x.deviceId = some c
      · rw [finish_current s cfg hx hd, called_now]
        rfl
      · rw [finish_replaced s cfg hx hd]
        rfl

theorem finish_nextConn (cfg : Config) (c : Nat) : (s.finish cfg c).nextConn = s.nextConn := by
  cases hx : s.conns c with
  | none => simp only [finish, hx]
  | some x =>
      by_cases hd : s.sessions x.deviceId = some c
      · rw [finish_current s cfg hx hd, called_nextConn]
        rfl
      · rw [finish_replaced s cfg hx hd]
        rfl

theorem finish_sessions (cfg : Config) {c : Nat} {x : Conn} (hx : s.conns c = some x) :
    (s.finish cfg c).sessions =
      if s.sessions x.deviceId = some c then Function.update s.sessions x.deviceId none
      else s.sessions := by
  by_cases hd : s.sessions x.deviceId = some c
  · rw [finish_current s cfg hx hd, called_sessions, if_pos hd]
  · rw [finish_replaced s cfg hx hd, setConn_sessions, if_neg hd]

theorem finish_conns (cfg : Config) {c : Nat} {x : Conn} (hx : s.conns c = some x) :
    (s.finish cfg c).conns = (s.setConn c { x with pc := .ended }).conns := by
  by_cases hd : s.sessions x.deviceId = some c
  · rw [finish_current s cfg hx hd, called_conns]
  · rw [finish_replaced s cfg hx hd]

end State

theorem Micro.now {cfg : Config} {s₀ s s' : State} {e : Step} (h : Micro cfg s₀ e s s')
    (he : ∀ ns, e ≠ .tick ns) : s'.now = s.now := by
  cases h with
  | tick he' => exact absurd he' (he _)
  | accept he' =>
      unfold State.accept
      split
      · rfl
      · dsimp only
        split
        · split <;> rfl
        · rfl
  | deviceSign he' => rfl
  | conn hx hnow ha h => rfl
  | connected hx hpc hc => exact State.called_now ..
  | finished hx hpc he' => exact State.finish_now ..
  | called hx hcall => exact State.called_now ..
  | stored ht hx hb hres ht₀ hnow hrec ha => rfl
  | task ht hc hp => rfl
  | spawned hp ha => rfl

end Fountainer
