import Fountainer.System.Ghost
import Fountainer.System.Lockstep

/-!
# Devices do not influence each other

What the server keeps of a device after a run is what it keeps after the steps of this device alone.
-/

namespace Fountainer

variable {cfg : Config} {d : Str} {s₀ s s' s'' v : State} {e : Step}

/-! ## Steps of other devices -/

/-- Nothing of device `d` changes from `s` to `s'`. -/
structure Apart (d : Str) (s s' : State) : Prop where
  now : s'.now = s.now
  nextConn : s.nextConn ≤ s'.nextConn
  nextTask : s.nextTask ≤ s'.nextTask
  belongs : s'.belongs d = s.belongs d
  taskBelongs : s'.taskBelongs d = s.taskBelongs d
  conns : ∀ c, s.belongs d c = true → s'.conns c = s.conns c
  tasks : ∀ t, s.taskBelongs d t = true → s'.tasks t = s.tasks t
  session : s'.sessions d = s.sessions d
  shadow : s'.deviceState d = s.deviceState d
  files : s'.files d = s.files d

namespace Apart

theorem refl (d : Str) (s : State) : Apart d s s :=
  ⟨rfl, Nat.le_refl _, Nat.le_refl _, rfl, rfl, fun _ _ => rfl, fun _ _ => rfl, rfl, rfl, rfl⟩

theorem trans (h : Apart d s s') (h' : Apart d s' s'') : Apart d s s'' where
  now := h'.now.trans h.now
  nextConn := Nat.le_trans h.nextConn h'.nextConn
  nextTask := Nat.le_trans h.nextTask h'.nextTask
  belongs := h'.belongs.trans h.belongs
  taskBelongs := h'.taskBelongs.trans h.taskBelongs
  conns c hc := (h'.conns c (h.belongs ▸ hc)).trans (h.conns c hc)
  tasks t ht := (h'.tasks t (h.taskBelongs ▸ ht)).trans (h.tasks t ht)
  session := h'.session.trans h.session
  shadow := h'.shadow.trans h.shadow
  files := h'.files.trans h.files

theorem setConn {c : Nat} {x x' : Conn} (hx : s.conns c = some x) (hc : s.belongs d c ≠ true)
    (hd : x'.deviceId = x.deviceId) : Apart d s (s.setConn c x') := by
  have hbelongs := State.belongs_setConn hx hd d
  refine { refl d s with belongs := hbelongs, taskBelongs := ?_, conns := ?_ }
  · funext t
    rw [State.taskBelongs, State.taskBelongs, hbelongs]
    rfl
  · intro c' hc'
    refine State.setConn_ne _ _ _ ?_
    rintro rfl
    exact hc hc'

theorem setShadow {d' : Str} (hd : d' ≠ d) (st : Shadow) : Apart d s (s.setShadow d' st) :=
  { refl d s with belongs := rfl, taskBelongs := rfl, shadow := State.setShadow_ne _ _ _ hd.symm }

theorem store {d' : Str} (hd : d' ≠ d) {α : Type} (o : TaskOut α) : Apart d s (s.store d' o) :=
  { setShadow (s := s) hd o.shadow with
    belongs := rfl, taskBelongs := rfl, files := Function.update_of_ne hd.symm .. }

theorem setTask {t : Nat} {y y' : Task} (hy : s.tasks t = some y) (hc : s.belongs d y.conn ≠ true)
    (hconn : y'.conn = y.conn) : Apart d s (s.setTask t y') := by
  have hnot : s.taskBelongs d t ≠ true := by
    rw [Ne, State.taskBelongs_iff]
    rintro ⟨y₀, hy₀, hown⟩
    rw [hy] at hy₀
    cases hy₀
    exact hc hown
  refine { refl d s with belongs := rfl, taskBelongs := ?_, tasks := ?_ }
  · funext t'
    by_cases ht : t' = t
    · subst ht
      simp only [State.taskBelongs, State.setTask_self, hy, Option.any_some, hconn]
      rfl
    · simp only [State.taskBelongs, State.setTask_ne _ _ _ ht]
      rfl
  · intro t' ht'
    refine State.setTask_ne _ _ _ ?_
    rintro rfl
    exact hnot ht'

theorem addTask (hs : s.Attached) {y : Task} (hc : s.belongs d y.conn ≠ true) : Apart d s (s.addTask y) := by
  have hfree : s.tasks s.nextTask = none := by
    cases hy : s.tasks s.nextTask with
    | none => rfl
    | some y₀ => exact absurd (hs _ _ hy).1 (Nat.lt_irrefl _)
  refine { refl d s with nextTask := Nat.le_succ _, belongs := rfl, taskBelongs := ?_, tasks := ?_ }
  · funext t
    by_cases ht : t = s.nextTask
    · subst ht
      simp only [State.addTask, State.taskBelongs, State.setTask_self, hfree, Option.any_some, Option.any_none]
      exact Bool.eq_false_iff.mpr hc
    · simp only [State.addTask, State.taskBelongs, State.setTask_ne _ _ _ ht]
      rfl
  · intro t ht
    refine State.setTask_ne _ _ _ ?_
    rintro rfl
    simp [State.taskBelongs, hfree] at ht

theorem addConn (hfree : s.belongs d s.nextConn ≠ true) {x : Conn} (hd : x.deviceId ≠ d) :
    Apart d s
      { s.setConn s.nextConn x with
        sessions := Function.update s.sessions x.deviceId (some s.nextConn), nextConn := s.nextConn + 1 } := by
  have hbelongs : (s.setConn s.nextConn x).belongs d = s.belongs d := by
    funext c
    by_cases hc : c = s.nextConn
    · subst hc
      rw [Bool.eq_false_iff.mpr hfree]
      simp [State.belongs, hd]
    · simp only [State.belongs, State.setConn_ne _ _ _ hc]
  refine { refl d s with
    nextConn := Nat.le_succ _, belongs := hbelongs, taskBelongs := ?_, conns := ?_
    session := Function.update_of_ne hd.symm .. }
  · funext t
    exact congrArg (fun b => (s.tasks t).any fun y => b y.conn) hbelongs
  · intro c hc
    refine State.setConn_ne _ _ _ ?_
    rintro rfl
    exact hfree hc

/-- Nothing refers to the log of callbacks. -/
theorem logged (h : Apart d s s') (hooks : List HookCall) : Apart d s { s' with hooks } :=
  { h with belongs := h.belongs, taskBelongs := h.taskBelongs }

end Apart

namespace State

theorem Attached.addTask (h : s.Attached) {y : Task} (hy : y.conn < s.nextConn) : (s.addTask y).Attached := by
  intro t z hz
  rcases setTask_cases _ _ _ hz with ⟨rfl, rfl⟩ | ⟨-, hz⟩
  · exact ⟨Nat.lt_succ_self _, hy⟩
  · exact ⟨Nat.lt_succ_of_lt (h t z hz).1, (h t z hz).2⟩

/-- The tasks of a connect hook are those of its connection. -/
theorem spawnTasks_apart (hs : s.Attached) {c : Nat} (hc : c < s.nextConn) :
    (s.spawnTasks c).Attached ∧ (s.belongs d c ≠ true → Apart d s (s.spawnTasks c)) := by
  have h₁ := hs.addTask (y := ⟨c, .fetchConfig false, .asleep (s.now + seconds 2)⟩) hc
  have h₂ := h₁.addTask (y := ⟨c, .pollLogs { started := s.now }, .asleep (s.now + seconds 3)⟩) hc
  have h₃ := h₂.addTask (y := ⟨c, .pollHistory .asleep, .asleep (s.now + seconds 4)⟩) hc
  refine ⟨h₃, fun hb => ((Apart.addTask hs ?_).trans (Apart.addTask h₁ ?_)).trans (Apart.addTask h₂ ?_)⟩
  · exact hb
  · exact hb
  · exact hb

theorem Attached.called (h : s.Attached) {c : Nat} (hc : c < s.nextConn) (d' key : Str) (k : Hook) (cause : Cause)
    (msg : Dict) (st : Shadow) : (s.called c d' key k cause msg st).Attached := by
  have hlogged : ∀ hooks, State.Attached { s.setShadow d' st with hooks } := fun _ => h
  unfold State.called
  dsimp only
  split
  · exact (spawnTasks_apart (d := d') (hlogged _) hc).1
  · exact hlogged _

end State

theorem Apart.called (hs : s.Attached) {c : Nat} (hlt : c < s.nextConn) (hc : s.belongs d c ≠ true) {d' : Str}
    (hd : d' ≠ d) (key : Str) (k : Hook) (cause : Cause) (msg : Dict) (st : Shadow) :
    Apart d s (s.called c d' key k cause msg st) := by
  have hset := (Apart.setShadow (s := s) hd st).logged (s.hooks ++ [{ conn := c, key, cause, msg }])
  have hattached : ∀ hooks, State.Attached { s.setShadow d' st with hooks } := fun _ => hs
  unfold State.called
  dsimp only
  split
  · exact hset.trans ((State.spawnTasks_apart (hattached _) hlt).2 hc)
  · exact hset

theorem Apart.accept {d' : Str} (hnew : s.Newest) (hn : s.Numbered) (hd : d' ≠ d) (rand : Bytes) :
    Apart d s (s.accept cfg d' rand) := by
  have hfree : s.belongs d s.nextConn ≠ true := by
    rw [Ne, State.belongs_iff]
    rintro ⟨x, hx, -⟩
    exact Nat.lt_irrefl _ (hn _ x hx)
  unfold State.accept
  cases cfg.registry.get d' with
  | none => exact .refl d s
  | some device =>
      cases hold : s.sessions d' with
      | none => exact .addConn hfree hd
      | some old =>
          obtain ⟨x, hx, hdx, -⟩ := hnew d' old hold
          have hset : Apart d s (s.setConn old { x with closeRequested := true }) := by
            refine .setConn hx ?_ rfl
            rw [Ne, State.belongs_iff]
            rintro ⟨x', hx', hdx'⟩
            rw [hx] at hx'
            cases hx'
            exact hd (hdx.symm.trans hdx')
          simp only [hx]
          refine hset.trans (.addConn ?_ hd)
          rw [hset.belongs]
          exact hfree

theorem Apart.finish {c : Nat} {x : Conn} (hs : s.Attached) (hn : s.Numbered) (hx : s.conns c = some x)
    (hd : x.deviceId ≠ d) : Apart d s (s.finish cfg c) := by
  have hc : s.belongs d c ≠ true := by
    rw [Ne, State.belongs_iff]
    rintro ⟨x', hx', hdx'⟩
    rw [hx] at hx'
    cases hx'
    exact hd hdx'
  have hset : Apart d s (s.setConn c { x with pc := .ended }) := .setConn hx hc rfl
  by_cases hcur : s.sessions x.deviceId = some c
  · rw [State.finish_current _ _ hx hcur]
    have hsession : Apart d s { s.setConn c { x with pc := .ended } with
        sessions := Function.update s.sessions x.deviceId none } :=
      { hset with
        belongs := hset.belongs, taskBelongs := hset.taskBelongs, session := Function.update_of_ne hd.symm .. }
    refine hsession.trans (Apart.called ?_ ?_ ?_ hd _ _ _ _ _)
    · exact hs
    · exact hn c x hx
    · exact hsession.belongs ▸ hc
  · rw [State.finish_replaced _ _ hx hcur]
    exact hset

/-! ## What a step keeps -/

/-- What holds of the numbers in every state of a run. -/
structure State.Orderly (s : State) : Prop where
  numbered : s.Numbered
  newest : s.Newest
  attached : s.Attached

/-- The connection on which the step acts exists. -/
def State.Acted (s₀ : State) (e : Step) (s : State) : Prop := ∀ c, s₀.actor e = some c → c < s.nextConn

theorem Micro.attached (hm : Micro cfg s₀ e s s') (hact : s₀.Acted e s) (hn : s.Numbered) (h : s.Attached) :
    s'.Attached := by
  cases hm with
  | tick he => exact h
  | accept he =>
      rename_i d' rand
      rcases s₀.accept_cases cfg d' rand with hacc | ⟨device, s₁, -, hs₁, hacc⟩
      · rw [hacc]
        exact h
      · have h₁ : ∀ t y, s₁.tasks t = some y → t < s₁.nextTask ∧ y.conn < s₀.nextConn := by
          rcases hs₁ with rfl | ⟨old, x, -, rfl⟩
          · exact h
          · exact h
        rw [hacc]
        exact fun t y hy => ⟨(h₁ t y hy).1, Nat.lt_succ_of_lt (h₁ t y hy).2⟩
  | deviceSign he => exact h
  | conn hx hnow ha hs => exact h
  | connected hx hpc hc =>
      rw [State.shake_eq]
      refine State.Attached.called ?_ ?_ _ _ _ _ _ _
      · exact h
      · exact hn _ _ hx
  | finished hx hpc he =>
      rename_i c x
      by_cases hcur : s.sessions x.deviceId = some c
      · rw [State.finish_current _ _ hx hcur]
        refine State.Attached.called ?_ ?_ _ _ _ _ _ _
        · exact h
        · exact hn _ _ hx
      · rw [State.finish_replaced _ _ hx hcur]
        exact h
  | called hx hcall => exact h.called (hn _ _ hx) _ _ _ _ _ _
  | stored => exact h
  | task ht ht₀ hc hp he ha hpause =>
      intro t' z hz
      rcases State.setTask_cases _ _ _ hz with ⟨rfl, rfl⟩ | ⟨-, hz⟩
      · exact ⟨(h _ _ ht).1, hc ▸ (h _ _ ht).2⟩
      · exact h t' z hz
  | spawned hp ha => exact h.addTask (hact _ ha)

/-- A step on a connection that does not exist does nothing. -/
theorem State.step_absent {c : Nat} (ha : s.actor e = some c) (hc : s.conns c = none) : s.step cfg e = s := by
  cases e with
  | tick ns => cases ha
  | accept d' rand => cases ha
  | deviceSign y => cases ha
  | recv c' frame =>
      cases ha
      simp only [step, recv, hc]
  | lost c' =>
      cases ha
      simp only [step, lost, hc]
  | resume c' ok =>
      cases ha
      simp only [step, resume, hc]
  | timeout c' =>
      cases ha
      simp only [step, timeout, hc]
  | check c' lag =>
      cases ha
      simp only [step, check, hc]
  | stop c' =>
      cases ha
      simp only [step, stop, hc]
  | finish c' =>
      cases ha
      simp only [step, hc]
  | api d' call =>
      have hd : s.sessions d' = some c := ha
      simp only [step, hd, startOn, hc]
  | dpRead d' names =>
      have hd : s.sessions d' = some c := ha
      simp only [step, hd, startOn, hc]
  | sendDone c' k ok =>
      cases ha
      simp only [step, modLink, settle, hc]
  | expire c' k =>
      cases ha
      simp only [step, modLink, hc]
  | reqDone c' k raises =>
      cases ha
      simp only [step, modLink, settle, hc]
  | wake t =>
      obtain ⟨y, hy, rfl⟩ := Option.map_eq_some_iff.mp ha
      simp only [step, hy]
      split
      · split
        · simp only [runTask, hc]
        · rfl
      · rfl

/-- A step of other devices acts on none of the connections of this one. -/
theorem State.actor_apart (hs : s.Orderly) (he : s.concerns d e = false) {c : Nat} (ha : s.actor e = some c) :
    s.belongs d c ≠ true := by
  have hroute : ∀ d', decide (d' = d) = false → s.sessions d' = some c → s.belongs d c ≠ true := by
    intro d' hd' hc
    obtain ⟨x, hx, hdx, -⟩ := hs.newest d' c hc
    rw [Ne, belongs_iff]
    rintro ⟨x', hx', hdx'⟩
    rw [hx] at hx'
    cases hx'
    exact of_decide_eq_false hd' (hdx.symm.trans hdx')
  cases e with
  | api d' call => exact hroute d' he ha
  | dpRead d' names => exact hroute d' he ha
  | wake t =>
      obtain ⟨y, hy, rfl⟩ := Option.map_eq_some_iff.mp ha
      simpa [concerns, taskBelongs, hy] using he
  | tick ns => cases ha
  | accept d' rand => cases ha
  | deviceSign y => cases ha
  | _ =>
      cases ha
      exact ne_true_of_eq_false he

theorem Micro.apart (hm : Micro cfg s₀ e s s') (hs₀ : s₀.Orderly) (he : s₀.concerns d e = false)
    (hn : s.Numbered) (hatt : s.Attached) (h : Apart d s₀ s) : Apart d s s' := by
  have hother : ∀ {c}, s₀.actor e = some c → s.belongs d c ≠ true := by
    intro c ha
    rw [h.belongs]
    exact State.actor_apart hs₀ he ha
  have hdevice : ∀ {c x}, s₀.actor e = some c → s.conns c = some x → x.deviceId ≠ d := by
    intro c x ha hx hd
    exact hother ha (State.belongs_iff.mpr ⟨x, hx, hd⟩)
  cases hm with
  | tick he' =>
      rw [he'] at he
      cases he
  | accept he' =>
      rw [he'] at he
      exact .accept hs₀.newest hs₀.numbered (of_decide_eq_false he) _
  | deviceSign he' => exact { Apart.refl d s₀ with belongs := rfl, taskBelongs := rfl }
  | conn hx hnow ha hstep => exact .setConn hx (hother ha) hstep.grows.deviceId
  | connected hx hpc hc =>
      rename_i c x
      have ha := State.actor_of_handler (s := s₀) (State.connects_handler (Bool.or_eq_true_iff.mpr (.inl hc)))
      have hshake : Apart d s (s.shake c x) := .setConn hx (hother ha) rfl
      refine hshake.trans (Apart.called ?_ ?_ ?_ (hdevice ha hx) _ _ _ _ _)
      · exact hatt
      · exact hn c x hx
      · exact hshake.belongs ▸ hother ha
  | finished hx hpc he' =>
      exact .finish hatt hn hx (hdevice (State.actor_of_handler he') hx)
  | called hx hcall =>
      exact .called hatt (hn _ _ hx) (hother hcall.actor) (hdevice hcall.actor hx) _ _ _ _ _
  | stored ht hx hb hres ht₀ hnow hrec ha => exact .store (hdevice ha hx) _
  | task ht ht₀ hc hp he' ha hpause => exact .setTask ht (hother ha) hc
  | spawned hp ha => exact .addTask hatt (hother ha)

/-- What holds in every state inside a step. -/
structure Within (d : Str) (s₀ : State) (e : Step) (s : State) : Prop where
  numbered : s.Numbered
  newest : s.Newest
  attached : s.Attached
  grown : s₀.nextConn ≤ s.nextConn
  apart : s₀.concerns d e = false → Apart d s₀ s

theorem Micro.nextConn_le (hm : Micro cfg s₀ e s s') : s.nextConn ≤ s'.nextConn := by
  cases hm with
  | accept he =>
      rename_i d' rand
      rcases s₀.accept_cases cfg d' rand with hacc | ⟨device, s₁, -, -, hacc⟩
      · rw [hacc]
      · rw [hacc]
        exact Nat.le_succ _
  | connected hx hpc hc =>
      rw [State.called_nextConn]
      exact Nat.le_refl _
  | finished hx hpc he => rw [State.finish_nextConn]
  | called hx hcall => rw [State.called_nextConn]
  | _ => exact Nat.le_refl _

/-- A step keeps the numbers in order, and a step of other devices leaves this one alone. -/
theorem State.Orderly.step (h : s.Orderly) (cfg : Config) (d : Str) (e : Step) :
    (s.step cfg e).Orderly ∧ (s.concerns d e = false → Apart d s (s.step cfg e)) := by
  by_cases habsent : ∃ c, s.actor e = some c ∧ s.conns c = none
  · obtain ⟨c, ha, hc⟩ := habsent
    rw [State.step_absent ha hc]
    exact ⟨h, fun _ => .refl d s⟩
  · have hact : s.Acted e s := by
      intro c ha
      cases hx : s.conns c with
      | none => exact absurd ⟨c, ha, hx⟩ habsent
      | some x => exact h.numbered c x hx
    have hstep : ∀ a b, Micro cfg s e a b → Within d s e a → Within d s e b := by
      intro a b hm ha
      have hacted : s.Acted e a := fun c hc => Nat.lt_of_lt_of_le (hact c hc) ha.grown
      exact
        { numbered := hm.numbered ha.numbered
          newest := hm.newest ha.numbered ha.newest
          attached := hm.attached hacted ha.numbered ha.attached
          grown := Nat.le_trans ha.grown hm.nextConn_le
          apart := fun he => (ha.apart he).trans (hm.apart h he ha.numbered ha.attached (ha.apart he)) }
    have hwithin := Run.star_invariant hstep (State.step_chain cfg s e)
      ⟨h.numbered, h.newest, h.attached, Nat.le_refl _, fun _ => .refl d s⟩
    exact ⟨⟨hwithin.numbered, hwithin.newest, hwithin.attached⟩, hwithin.apart⟩

/-- A step of other devices changes no more than the numbers that come next. -/
theorem Mirrors.apart {r : Renaming} (h : Mirrors d r s v) (ha : Apart d s s') : ∃ r', Mirrors d r' s' v := by
  obtain ⟨l, hl⟩ := Nat.exists_eq_add_of_le ha.nextConn
  obtain ⟨m, hm⟩ := Nat.exists_eq_add_of_le ha.nextTask
  obtain ⟨f, hf, hfn, hfold⟩ := h.connMono.shift h.nextConn l
  obtain ⟨g, hg, hgn, hgold⟩ := h.taskMono.shift h.nextTask m
  have hmap : ∀ o : Option Nat, (∀ i, o = some i → i < v.nextConn) → o.map r.conn = o.map f := by
    intro o ho
    cases o with
    | none => rfl
    | some i => rw [Option.map_some, Option.map_some, hfold i (ho i rfl)]
  refine ⟨⟨f, g⟩, ?_⟩
  exact
    { now := ha.now.trans h.now
      connMono := hf
      taskMono := hg
      nextConn := fun k => by rw [hl]; exact hfn k
      nextTask := fun k => by rw [hm]; exact hgn k
      numbered := h.numbered
      taskNumbered := h.taskNumbered
      belongs := by
        intro c
        dsimp only
        rw [ha.belongs, h.belongs]
        exact exists_congr fun i => and_congr_right fun hi => by rw [hfold i hi]
      taskBelongs := by
        intro t
        dsimp only
        rw [ha.taskBelongs, h.taskBelongs]
        exact exists_congr fun j => and_congr_right fun hj => by rw [hgold j hj]
      conns := by
        intro i hi
        dsimp only
        rw [hfold i hi, ha.conns _ (h.belongs_conn.mpr hi)]
        exact h.conns i hi
      tasks := by
        intro j hj
        dsimp only
        obtain ⟨y, hy, hsy, hc⟩ := h.task hj
        rw [hgold j hj, ha.tasks _ ((h.taskBelongs _).mpr ⟨j, hj, rfl⟩), hsy, hy]
        simp [Renaming.apply, hfold _ hc]
      session := by rw [ha.session, h.session, hmap _ h.entry]
      entry := h.entry
      shadow := ha.shadow.trans h.shadow
      files := ha.files.trans h.files }

/-! ## The view of a device -/

namespace State

/-- The number of a connection among those of its device. -/
def rank (s : State) (d : Str) (c : Nat) : Nat := Nat.count (fun c => s.belongs d c = true) c

/-- The number of a task among those of its device. -/
def taskRank (s : State) (d : Str) (t : Nat) : Nat := Nat.count (fun t => s.taskBelongs d t = true) t

/-- A step as device `d` sees it. -/
def seen (d : Str) (s : State) (e : Step) : List Step :=
  if s.concerns d e then [e.rename (s.rank d) (s.taskRank d)] else []

end State

/-- What the server keeps of one device. -/
structure DeviceView where
  session : Option Nat
  conns : List Conn
  tasks : List Task
  shadow : Shadow
  files : List LogLine

def State.viewOf (s : State) (d : Str) : DeviceView where
  session := (s.sessions d).map (s.rank d)
  conns := (List.range s.nextConn).filterMap fun c => (s.conns c).filter fun x => x.deviceId = d
  tasks := (List.range s.nextTask).filterMap fun t =>
    ((s.tasks t).filter fun y => s.belongs d y.conn).map fun y => { y with conn := s.rank d y.conn }
  shadow := s.deviceState d
  files := s.files d

namespace Mirrors

variable {r : Renaming} {i j : Nat}

theorem rank (h : Mirrors d r s v) (hi : i < v.nextConn) : s.rank d (r.conn i) = i :=
  Nat.count_of_strictMono h.connMono (fun c => h.belongs c) hi

theorem taskRank (h : Mirrors d r s v) (hj : j < v.nextTask) : s.taskRank d (r.task j) = j :=
  Nat.count_of_strictMono h.taskMono (fun t => h.taskBelongs t) hj

/-- A mirror mirrors itself. -/
theorem self (h : Mirrors d r s v) : Mirrors d ⟨id, id⟩ v v where
  now := rfl
  connMono := strictMono_id
  taskMono := strictMono_id
  nextConn _ := rfl
  nextTask _ := rfl
  numbered := h.numbered
  taskNumbered := h.taskNumbered
  belongs c := by simp [h.belongs_mirror]
  taskBelongs t := by
    simp only [id_eq, exists_eq_right, State.taskBelongs_iff]
    constructor
    · rintro ⟨y, hy, -⟩
      exact h.taskNumbered t y hy
    · intro ht
      obtain ⟨y, hy, -, hc⟩ := h.task ht
      exact ⟨y, hy, h.belongs_mirror.mpr hc⟩
  conns _ _ := rfl
  tasks j _ := by
    dsimp only [id_eq]
    cases v.tasks j <;> rfl
  session := by simp
  entry := h.entry
  shadow := rfl
  files := rfl

theorem viewOf_conns (h : Mirrors d r s v) : (s.viewOf d).conns = (v.viewOf d).conns := by
  refine (List.filterMap_range_of_strictMono h.connMono h.nextConn_eq fun c hc => ?_).trans ?_
  · refine (h.belongs c).mp (State.belongs_iff.mpr ?_)
    obtain ⟨x, hx⟩ := Option.isSome_iff_exists.mp hc
    obtain ⟨hx, hd⟩ := Option.filter_eq_some_iff.mp hx
    exact ⟨x, hx, of_decide_eq_true hd⟩
  · refine List.filterMap_congr fun i hi => ?_
    rw [h.conns i (List.mem_range.mp hi)]

theorem viewOf_tasks (h : Mirrors d r s v) : (s.viewOf d).tasks = (v.viewOf d).tasks := by
  refine (List.filterMap_range_of_strictMono h.taskMono h.nextTask_eq fun t ht => ?_).trans ?_
  · refine (h.taskBelongs t).mp (State.taskBelongs_iff.mpr ?_)
    rw [Option.isSome_map] at ht
    obtain ⟨y, hy⟩ := Option.isSome_iff_exists.mp ht
    exact ⟨y, Option.filter_eq_some_iff.mp hy⟩
  · refine List.filterMap_congr fun j hj => ?_
    obtain ⟨y, hy, hsy, hc⟩ := h.task (List.mem_range.mp hj)
    have hs : s.belongs d (r.conn y.conn) = true := h.belongs_conn.mpr hc
    have hv : v.belongs d y.conn = true := h.belongs_mirror.mpr hc
    have hself : v.rank d y.conn = y.conn := h.self.rank hc
    simp [hy, hsy, Renaming.apply, Option.filter, hs, hv, h.rank hc, hself]

theorem viewOf_eq (h : Mirrors d r s v) : s.viewOf d = v.viewOf d := by
  have hsession : (s.viewOf d).session = (v.viewOf d).session := by
    simp only [State.viewOf, h.session]
    cases hc : v.sessions d with
    | none => rfl
    | some i =>
        have hself : v.rank d i = i := h.self.rank (h.entry i hc)
        simp [h.rank (h.entry i hc), hself]
  have hconns := h.viewOf_conns
  have htasks := h.viewOf_tasks
  have hshadow : (s.viewOf d).shadow = (v.viewOf d).shadow := h.shadow
  have hfiles : (s.viewOf d).files = (v.viewOf d).files := h.files
  cases hs : s.viewOf d
  cases hv : v.viewOf d
  rw [hs, hv] at hsession hconns htasks hshadow hfiles
  cases hsession
  cases hconns
  cases htasks
  cases hshadow
  cases hfiles
  rfl

/-- What the device sees of a step of its own is that step of the mirror. -/
theorem seen (h : Mirrors d r s v) (he : s.concerns d e = true) :
    ∃ e', s.seen d e = [e'] ∧ v.concerns d e' = true ∧ e'.rename r.conn r.task = e := by
  have hconn : ∀ {c}, s.belongs d c = true → v.belongs d (s.rank d c) = true ∧ r.conn (s.rank d c) = c := by
    intro c hc
    obtain ⟨i, hi, rfl⟩ := (h.belongs c).mp hc
    rw [h.rank hi]
    exact ⟨h.belongs_mirror.mpr hi, rfl⟩
  have htask : ∀ {t}, s.taskBelongs d t = true →
      v.taskBelongs d (s.taskRank d t) = true ∧ r.task (s.taskRank d t) = t := by
    intro t ht
    obtain ⟨j, hj, rfl⟩ := (h.taskBelongs t).mp ht
    rw [h.taskRank hj]
    exact ⟨(h.self.taskBelongs j).mpr ⟨j, hj, rfl⟩, rfl⟩
  refine ⟨e.rename (s.rank d) (s.taskRank d), if_pos he, ?_⟩
  cases e with
  | tick ns => exact ⟨rfl, rfl⟩
  | accept d' rand => exact ⟨he, rfl⟩
  | api d' call => exact ⟨he, rfl⟩
  | dpRead d' names => exact ⟨he, rfl⟩
  | deviceSign y => cases he
  | wake t => exact ⟨(htask he).1, congrArg Step.wake (htask he).2⟩
  | recv c frame => exact ⟨(hconn he).1, congrArg (Step.recv · frame) (hconn he).2⟩
  | lost c => exact ⟨(hconn he).1, congrArg Step.lost (hconn he).2⟩
  | resume c ok => exact ⟨(hconn he).1, congrArg (Step.resume · ok) (hconn he).2⟩
  | timeout c => exact ⟨(hconn he).1, congrArg Step.timeout (hconn he).2⟩
  | check c lag => exact ⟨(hconn he).1, congrArg (Step.check · lag) (hconn he).2⟩
  | stop c => exact ⟨(hconn he).1, congrArg Step.stop (hconn he).2⟩
  | finish c => exact ⟨(hconn he).1, congrArg Step.finish (hconn he).2⟩
  | sendDone c k ok => exact ⟨(hconn he).1, congrArg (Step.sendDone · k ok) (hconn he).2⟩
  | expire c k => exact ⟨(hconn he).1, congrArg (Step.expire · k) (hconn he).2⟩
  | reqDone c k raises => exact ⟨(hconn he).1, congrArg (Step.reqDone · k raises) (hconn he).2⟩

/-- A server that has just been started has nothing of any device. -/
theorem init (d : Str) (t : Nat) : Mirrors d ⟨id, id⟩ (.init t) (.init t) where
  now := rfl
  connMono := strictMono_id
  taskMono := strictMono_id
  nextConn _ := rfl
  nextTask _ := rfl
  numbered _ _ hx := by cases hx
  taskNumbered _ _ hy := by cases hy
  belongs _ := by simp [State.belongs, State.init]
  taskBelongs _ := by simp [State.taskBelongs, State.init]
  conns _ _ := rfl
  tasks _ _ := rfl
  session := rfl
  entry _ hi := by cases hi
  shadow := rfl
  files := rfl

end Mirrors

theorem State.orderly_init (t : Nat) : (State.init t).Orderly where
  numbered _ _ hx := by cases hx
  newest _ _ hc := by cases hc
  attached _ _ hy := by cases hy

/-- What the server keeps of a device is what it would keep without the others. -/
theorem device_isolation (cfg : Config) (d : Str) (t : Nat) (es : List Step) :
    (State.after cfg t es).viewOf d =
      (State.after cfg t (Run.view (State.step cfg) (State.seen d) (.init t) es)).viewOf d := by
  have hstep : ∀ s v e, (State.Orderly s ∧ ∃ r, Mirrors d r s v) →
      (s.step cfg e).Orderly ∧ ∃ r, Mirrors d r (s.step cfg e) (Run.run (State.step cfg) v (s.seen d e)) := by
    rintro s v e ⟨hs, r, h⟩
    obtain ⟨hs', happart⟩ := hs.step cfg d e
    refine ⟨hs', ?_⟩
    cases he : s.concerns d e with
    | true =>
        obtain ⟨e', hseen, hv, hrename⟩ := h.seen he
        have hboth : Mirrors d r (s.step cfg (e'.rename r.conn r.task)) (v.step cfg e') := h.step hs.attached hv
        rw [hrename] at hboth
        rw [hseen]
        exact ⟨r, hboth⟩
    | false =>
        have hseen : s.seen d e = [] := by simp [State.seen, he]
        rw [hseen]
        exact h.apart (happart he)
  obtain ⟨-, r, h⟩ := Run.unwinding hstep ⟨State.orderly_init t, _, Mirrors.init d t⟩ es
  exact h.viewOf_eq

end Fountainer
