import Fountainer.Library.View
import Fountainer.System.Newest

/-!
# The part of a server that belongs to one device

A server `v` mirrors a device of a server `s`: it has the connections and the tasks of this device and
no others, under numbers of its own. What is done to this part of both leaves one a mirror of the other.
-/

namespace Fountainer

namespace State

/-- Connection `c` is one of device `d`. -/
def belongs (s : State) (d : Str) (c : Nat) : Bool := (s.conns c).any fun x => x.deviceId = d

/-- Task `t` runs for a connection of device `d`. -/
def taskBelongs (s : State) (d : Str) (t : Nat) : Bool := (s.tasks t).any fun y => s.belongs d y.conn

theorem belongs_iff {s : State} {d : Str} {c : Nat} :
    s.belongs d c = true ↔ ∃ x, s.conns c = some x ∧ x.deviceId = d := by
  simp [belongs, Option.any_eq_true]

theorem taskBelongs_iff {s : State} {d : Str} {t : Nat} :
    s.taskBelongs d t = true ↔ ∃ y, s.tasks t = some y ∧ s.belongs d y.conn = true := by
  simp [taskBelongs, Option.any_eq_true]

theorem belongs_setConn {s : State} {c : Nat} {x x' : Conn} (hx : s.conns c = some x)
    (hd : x'.deviceId = x.deviceId) (d : Str) : (s.setConn c x').belongs d = s.belongs d := by
  funext c'
  by_cases hc : c' = c
  · subst hc
    simp [belongs, hx, hd]
  · simp [belongs, setConn_ne _ _ _ hc]

/-- Tasks have been numbered, and run for connections that have been accepted. -/
def Attached (s : State) : Prop := ∀ t y, s.tasks t = some y → t < s.nextTask ∧ y.conn < s.nextConn

end State

/-- Which number of the server a number of its mirror stands for. -/
structure Renaming where
  conn : Nat → Nat
  task : Nat → Nat

def Renaming.apply (r : Renaming) (y : Task) : Task := { y with conn := r.conn y.conn }

structure Mirrors (d : Str) (r : Renaming) (s v : State) : Prop where
  now : s.now = v.now
  connMono : StrictMono r.conn
  taskMono : StrictMono r.task
  nextConn : ∀ k, r.conn (v.nextConn + k) = s.nextConn + k
  nextTask : ∀ k, r.task (v.nextTask + k) = s.nextTask + k
  numbered : ∀ i x, v.conns i = some x → i < v.nextConn
  taskNumbered : ∀ j y, v.tasks j = some y → j < v.nextTask
  belongs : ∀ c, s.belongs d c = true ↔ ∃ i < v.nextConn, r.conn i = c
  taskBelongs : ∀ t, s.taskBelongs d t = true ↔ ∃ j < v.nextTask, r.task j = t
  conns : ∀ i < v.nextConn, s.conns (r.conn i) = v.conns i
  tasks : ∀ j < v.nextTask, s.tasks (r.task j) = (v.tasks j).map r.apply
  session : s.sessions d = (v.sessions d).map r.conn
  entry : ∀ i, v.sessions d = some i → i < v.nextConn
  shadow : s.deviceState d = v.deviceState d
  files : s.files d = v.files d

variable {cfg : Config} {d : Str} {r : Renaming} {s v : State} {i j : Nat} {x : Conn}

namespace Mirrors

theorem nextConn_eq (h : Mirrors d r s v) : r.conn v.nextConn = s.nextConn := h.nextConn 0

theorem nextTask_eq (h : Mirrors d r s v) : r.task v.nextTask = s.nextTask := h.nextTask 0

theorem conn (h : Mirrors d r s v) (hi : i < v.nextConn) :
    ∃ x, v.conns i = some x ∧ s.conns (r.conn i) = some x ∧ x.deviceId = d := by
  obtain ⟨x, hx, hd⟩ := State.belongs_iff.mp ((h.belongs _).mpr ⟨i, hi, rfl⟩)
  exact ⟨x, (h.conns i hi).symm.trans hx, hx, hd⟩

theorem device (h : Mirrors d r s v) (hx : v.conns i = some x) : x.deviceId = d := by
  obtain ⟨x', hx', -, hd⟩ := h.conn (h.numbered i x hx)
  rw [hx] at hx'
  cases hx'
  exact hd

theorem belongs_conn (h : Mirrors d r s v) : s.belongs d (r.conn i) = true ↔ i < v.nextConn := by
  rw [h.belongs]
  constructor
  · rintro ⟨i', hi', heq⟩
    rw [← h.connMono.injective heq]
    exact hi'
  · exact fun hi => ⟨i, hi, rfl⟩

theorem task (h : Mirrors d r s v) (hj : j < v.nextTask) :
    ∃ y, v.tasks j = some y ∧ s.tasks (r.task j) = some (r.apply y) ∧ y.conn < v.nextConn := by
  obtain ⟨y, hy, hd⟩ := State.taskBelongs_iff.mp ((h.taskBelongs _).mpr ⟨j, hj, rfl⟩)
  have hmap := (h.tasks j hj).symm.trans hy
  obtain ⟨y', hy', rfl⟩ := Option.map_eq_some_iff.mp hmap
  exact ⟨y', hy', hy, h.belongs_conn.mp hd⟩

theorem task_lt (h : Mirrors d r s v) (hj : j < v.nextTask) : r.task j < s.nextTask := by
  rw [← h.nextTask_eq]
  exact h.taskMono hj

theorem conn_lt (h : Mirrors d r s v) (hi : i < v.nextConn) : r.conn i < s.nextConn := by
  rw [← h.nextConn_eq]
  exact h.connMono hi

/-! ## Updates of both -/

/-- Nothing refers to the log of callbacks. -/
theorem logged (h : Mirrors d r s v) (hooks hooks' : List HookCall) :
    Mirrors d r { s with hooks } { v with hooks := hooks' } :=
  { h with belongs := h.belongs, taskBelongs := h.taskBelongs }

theorem setConn (h : Mirrors d r s v) (hx : v.conns i = some x) (x' : Conn) (hd : x'.deviceId = x.deviceId) :
    Mirrors d r (s.setConn (r.conn i) x') (v.setConn i x') := by
  have hi := h.numbered i x hx
  have hsx : s.conns (r.conn i) = some x := (h.conns i hi).trans hx
  have hbelongs := State.belongs_setConn hsx hd d
  refine { h with numbered := ?_, belongs := ?_, taskBelongs := ?_, conns := ?_ }
  · intro i' y hy
    rcases State.setConn_cases _ _ _ hy with ⟨rfl, -⟩ | ⟨-, hy⟩
    · exact hi
    · exact h.numbered i' y hy
  · rw [hbelongs]
    exact h.belongs
  · intro t
    refine Iff.trans ?_ (h.taskBelongs t)
    rw [State.taskBelongs, State.taskBelongs, hbelongs]
    rfl
  · intro i' hi'
    by_cases hii : i' = i
    · subst hii
      simp
    · rw [State.setConn_ne _ _ _ hii, State.setConn_ne _ _ _ fun heq => hii (h.connMono.injective heq)]
      exact h.conns i' hi'

theorem setShadow (h : Mirrors d r s v) (st : Shadow) : Mirrors d r (s.setShadow d st) (v.setShadow d st) :=
  { h with belongs := h.belongs, taskBelongs := h.taskBelongs, shadow := by simp }

theorem store (h : Mirrors d r s v) {α : Type} (o : TaskOut α) : Mirrors d r (s.store d o) (v.store d o) :=
  { h.setShadow o.shadow with
    belongs := h.belongs, taskBelongs := h.taskBelongs
    files := by simp [State.store, h.files] }

theorem setTask (h : Mirrors d r s v) {y : Task} (hy : v.tasks j = some y) (y' : Task) (hc : y'.conn = y.conn) :
    Mirrors d r (s.setTask (r.task j) (r.apply y')) (v.setTask j y') := by
  have hj := h.taskNumbered j y hy
  obtain ⟨y₀, hy₀, hsy, hlt⟩ := h.task hj
  rw [hy] at hy₀
  cases hy₀
  refine { h with belongs := h.belongs, taskNumbered := ?_, taskBelongs := ?_, tasks := ?_ }
  · intro j' z hz
    rcases State.setTask_cases _ _ _ hz with ⟨rfl, -⟩ | ⟨-, hz⟩
    · exact hj
    · exact h.taskNumbered j' z hz
  · intro t
    refine Iff.trans ?_ (h.taskBelongs t)
    by_cases ht : t = r.task j
    · subst ht
      simp [State.taskBelongs, hsy, Renaming.apply, hc]
      rfl
    · simp [State.taskBelongs, State.setTask_ne _ _ _ ht]
      rfl
  · intro j' hj'
    by_cases hjj : j' = j
    · subst hjj
      simp
    · rw [State.setTask_ne _ _ _ hjj, State.setTask_ne _ _ _ fun heq => hjj (h.taskMono.injective heq)]
      exact h.tasks j' hj'

theorem addTask (h : Mirrors d r s v) (y : Task) (hy : y.conn < v.nextConn) :
    Mirrors d r (s.addTask (r.apply y)) (v.addTask y) := by
  have hbelongs : s.belongs d (r.apply y).conn = true := h.belongs_conn.mpr hy
  refine { h with belongs := h.belongs, nextTask := ?_, taskNumbered := ?_, taskBelongs := ?_, tasks := ?_ }
  · intro k
    have hk := h.nextTask (1 + k)
    rw [← Nat.add_assoc, ← Nat.add_assoc] at hk
    exact hk
  · intro j z hz
    rcases State.setTask_cases _ _ _ hz with ⟨rfl, -⟩ | ⟨-, hz⟩
    · exact Nat.lt_succ_self _
    · exact Nat.lt_succ_of_lt (h.taskNumbered j z hz)
  · intro t
    by_cases ht : t = s.nextTask
    · subst ht
      have hlast : ∃ j < (v.addTask y).nextTask, r.task j = s.nextTask := ⟨_, Nat.lt_succ_self _, h.nextTask_eq⟩
      have hadded : (s.addTask (r.apply y)).taskBelongs d s.nextTask = true :=
        State.taskBelongs_iff.mpr ⟨r.apply y, by simp [State.addTask], hbelongs⟩
      exact ⟨fun _ => hlast, fun _ => hadded⟩
    · have hold := h.taskBelongs t
      have hne : ∀ j, r.task j = t → j ≠ v.nextTask := fun j hj heq => ht (by rw [← hj, heq, h.nextTask_eq])
      simp only [State.addTask, State.taskBelongs, State.setTask_ne _ _ _ ht] at hold ⊢
      refine hold.trans ⟨?_, ?_⟩
      · rintro ⟨j, hj, heq⟩
        exact ⟨j, Nat.lt_succ_of_lt hj, heq⟩
      · rintro ⟨j, hj, heq⟩
        exact ⟨j, Nat.lt_of_le_of_ne (Nat.le_of_lt_succ hj) (hne j heq), heq⟩
  · intro j hj
    simp only [State.addTask] at hj ⊢
    rw [← h.nextTask_eq]
    by_cases hjj : j = v.nextTask
    · subst hjj
      simp
    · rw [State.setTask_ne _ _ _ hjj, State.setTask_ne _ _ _ fun heq => hjj (h.taskMono.injective heq)]
      exact h.tasks j (Nat.lt_of_le_of_ne (Nat.le_of_lt_succ hj) hjj)

theorem setSession (h : Mirrors d r s v) (o : Option Nat) (ho : ∀ i, o = some i → i < v.nextConn) :
    Mirrors d r { s with sessions := Function.update s.sessions d (o.map r.conn) }
      { v with sessions := Function.update v.sessions d o } := by
  refine { h with belongs := h.belongs, taskBelongs := h.taskBelongs, session := by simp, entry := ?_ }
  intro i hi
  exact ho i (by simpa using hi)

theorem addConn (h : Mirrors d r s v) (hs : s.Attached) (hd : x.deviceId = d) :
    Mirrors d r
      { s.setConn s.nextConn x with
        sessions := Function.update s.sessions d (some s.nextConn), nextConn := s.nextConn + 1 }
      { v.setConn v.nextConn x with
        sessions := Function.update v.sessions d (some v.nextConn), nextConn := v.nextConn + 1 } := by
  have hbelongs : ∀ c, (s.setConn s.nextConn x).belongs d c = true ↔ c = s.nextConn ∨ s.belongs d c = true := by
    intro c
    by_cases hc : c = s.nextConn
    · simp [State.belongs, hc, hd]
    · simp [State.belongs, State.setConn_ne _ _ _ hc, hc]
  refine { h with
    nextConn := ?_, numbered := ?_, belongs := ?_, taskBelongs := ?_, conns := ?_
    session := by simp [h.nextConn_eq], entry := by simp }
  · intro k
    have hk := h.nextConn (1 + k)
    rw [← Nat.add_assoc, ← Nat.add_assoc] at hk
    exact hk
  · intro i y hy
    rcases State.setConn_cases _ _ _ hy with ⟨rfl, -⟩ | ⟨-, hy⟩
    · exact Nat.lt_succ_self _
    · exact Nat.lt_succ_of_lt (h.numbered i y hy)
  · intro c
    refine (hbelongs c).trans ?_
    rw [h.belongs]
    constructor
    · rintro (rfl | ⟨i, hi, rfl⟩)
      · exact ⟨v.nextConn, Nat.lt_succ_self _, h.nextConn_eq⟩
      · exact ⟨i, Nat.lt_succ_of_lt hi, rfl⟩
    · rintro ⟨i, hi, rfl⟩
      rcases Nat.lt_succ_iff_lt_or_eq.mp hi with hi | rfl
      · exact .inr ⟨i, hi, rfl⟩
      · exact .inl h.nextConn_eq
  · intro t
    refine Iff.trans ?_ (h.taskBelongs t)
    rw [State.taskBelongs_iff, State.taskBelongs_iff]
    refine exists_congr fun y => and_congr_right fun hy => (hbelongs y.conn).trans ?_
    exact or_iff_right (Nat.ne_of_lt (hs t y hy).2)
  · intro i hi
    dsimp only at hi ⊢
    rw [← h.nextConn_eq]
    by_cases hii : i = v.nextConn
    · subst hii
      simp
    · rw [State.setConn_ne _ _ _ hii, State.setConn_ne _ _ _ fun heq => hii (h.connMono.injective heq)]
      exact h.conns i (Nat.lt_of_le_of_ne (Nat.le_of_lt_succ hi) hii)

end Mirrors

end Fountainer
