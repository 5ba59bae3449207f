import Fountainer.App.Log
import Fountainer.Library.Run

/-!
# Log polling without a sleep

An iteration of `_poll_logs` starts over at once after a new boot id and after a full batch. When it has
made progress, and how long the poller can go on without a sleep, for replies of any content.
-/

namespace Fountainer

/-- What `_poll_logs` resumes with: the shadow, the clock and the result of its request. -/
structure PollInput where
  st : Shadow
  now : Clock
  res : Except PyErr Dict

/-- `_poll_logs` and what the session and the iteration have brought so far. -/
structure Draining where
  poll : LogPoll
  next : Next := .sleep (seconds 3)
  /-- The boot ids that the session has switched to. -/
  seen : List Int := []
  /-- `last_seq` when the iteration began. -/
  first : Int := 0
  /-- The iteration has switched to a boot id not seen before. -/
  fresh : Bool := false
  /-- The reply of the iteration meets `advances`. -/
  advanced : Bool := true

def Next.isCall : Next → Bool
  | .call _ => true
  | _ => false

def Next.ends : Next → Bool
  | .finish => true
  | _ => false

namespace Draining

def init (started : Clock) : Draining := { poll := { started } }

/-- The reply is of a boot id not seen before, or full with a number behind the cursor, or the iteration
does not start over after it. -/
def advances (d : Draining) (res : Dict) : Bool :=
  match (res.get (py "boot_id")).toIntOr 0 with
  | .error _ => true
  | .ok boot =>
      if boot ≠ 0 ∧ d.poll.bootId ≠ some boot then decide (boot ∉ d.seen ∨ d.poll.lastSeq < 0)
      else match (res.get (py "records")).or (.arr []) with
        | .arr rs => match maxSeq rs with
            | .ok s => decide (64 ≤ rs.length → d.poll.lastSeq < s)
            | .error _ => true
        | _ => true

/-- Whether the reply of the iteration meets `advances`. -/
def met (d : Draining) (i : PollInput) : Bool :=
  match d.poll.stage, i.res with
  | .batch, .ok res => d.advances res
  | _, _ => d.advanced

def out (d : Draining) (i : PollInput) : TaskOut LogPoll := d.poll.resume i.st i.now i.res

def step (d : Draining) (i : PollInput) : Draining :=
  if d.next.ends then d
  else
    let o := d.out i
    match o.task.stage with
    | .prev => { poll := o.task, next := o.next, seen := o.task.bootId.toList ++ d.seen, first := d.first
                 fresh := o.task.bootId.all (· ∉ d.seen), advanced := d.met i }
    | .ack => { d with poll := o.task, next := o.next }
    | _ => { poll := o.task, next := o.next, seen := d.seen, first := o.task.lastSeq }

/-- The iteration goes back to the head of the loop without a sleep, and the head goes on. -/
def startsOver (d : Draining) (i : PollInput) : Bool :=
  !d.next.ends && !d.poll.stage.sleeps && !(d.out i).next.ends
    && match (d.out i).task.stage with
      | .batch | .paused => true
      | _ => false

/-- The iteration has switched to a boot id not seen before or has increased `last_seq`. -/
def Progress (d : Draining) (i : PollInput) : Prop :=
  d.fresh = true ∨ d.first < (d.out i).task.lastSeq

end Draining

/-! ## One step -/

/-- What `_poll_logs` does with a reply to `log_read`. -/
theorem LogPoll.onBatch_cases (p : LogPoll) (st : Shadow) (now : Clock) (res : Dict) :
    let o := p.onBatch st now res
    o.next = .finish ∨ (o.task.stage = .asleep ∧ (∃ ns, o.next = .sleep ns) ∧
      (o.task.lastSeq = p.lastSeq ∨
        ∃ rs, (res.get (py "records")).or (.arr []) = .arr rs ∧ maxSeq rs = .ok o.task.lastSeq)) ∨
    (∃ boot, (res.get (py "boot_id")).toIntOr 0 = .ok boot ∧ (boot ≠ 0 ∧ p.bootId ≠ some boot) ∧
      o.next = .call logReadPrevCall ∧ o.task = { p with bootId := some boot, lastSeq := 0, stage := .prev }) ∨
    ∃ boot rs s p' st' lines, (res.get (py "boot_id")).toIntOr 0 = .ok boot ∧
      ¬(boot ≠ 0 ∧ p.bootId ≠ some boot) ∧ (res.get (py "records")).or (.arr []) = .arr rs ∧
      64 ≤ rs.length ∧ maxSeq rs = .ok s ∧ o = LogPoll.head p' st' lines ∧ p'.lastSeq = s := by
  intro o
  have ho : o = p.onBatch st now res := rfl
  unfold onBatch at ho
  cases hboot : (res.get (py "boot_id")).toIntOr 0 with
  | error e =>
      rw [hboot] at ho
      exact .inl (congrArg TaskOut.next ho)
  | ok boot =>
      rw [hboot] at ho
      by_cases hnew : boot ≠ 0 ∧ p.bootId ≠ some boot
      · simp only [if_pos hnew] at ho
        rw [ho]
        exact .inr (.inr (.inl ⟨boot, rfl, hnew, rfl, rfl⟩))
      · simp only [if_neg hnew] at ho
        unfold onRecords at ho
        dsimp only at ho
        have hkeep : (if (res.get (py "overflow")).truthy = true then { p with fastUntil := now + seconds 120 }
            else p).lastSeq = p.lastSeq := by
          split <;> rfl
        generalize (if (res.get (py "overflow")).truthy = true then { p with fastUntil := now + seconds 120 }
          else p) = p' at ho hkeep
        split at ho
        · exact .inl (congrArg TaskOut.next ho)
        · split at ho
          · rw [ho]
            exact .inr (.inl ⟨rfl, ⟨_, rfl⟩, .inl hkeep⟩)
          · rename_i rs _ hrs
            split at ho
            · exact .inl (congrArg TaskOut.next ho)
            · rename_i s hs
              split at ho
              · rename_i hfull
                exact .inr (.inr (.inr ⟨boot, rs, s, _, _, _, rfl, hnew, hrs, hfull, hs, ho, rfl⟩))
              · rw [ho]
                exact .inr (.inl ⟨rfl, ⟨_, rfl⟩, .inr ⟨rs, hrs, hs⟩⟩)
          · exact .inl (congrArg TaskOut.next ho)

theorem LogPoll.resume_cases {p : LogPoll} (hp : p.stage ≠ .batch) (st : Shadow) (now : Clock)
    (res : Except PyErr Dict) :
    let o := p.resume st now res
    (∃ lines, p.Goes lines o) ∨
      (p.stage = .prev ∧ o.task = { p with stage := .ack } ∧ ∃ boot, o.next = .call (logAckPrevCall boot)) := by
  intro o
  have ho : o = p.resume st now res := rfl
  cases res with
  | error e => exact .inl ⟨[], ho ▸ p.error_goes st now e⟩
  | ok res =>
      unfold resume at ho
      cases hs : p.stage with
      | batch => exact absurd hs hp
      | asleep | paused | ack =>
          rw [hs] at ho
          exact .inl ⟨[], ho ▸ p.head_goes st []⟩
      | prev =>
          rw [hs] at ho
          dsimp only at ho
          unfold onPrev at ho
          split at ho
          · exact .inl ⟨[], ho ▸ p.head_goes st []⟩
          · split at ho
            · exact .inl ⟨[], ho ▸ p.head_goes st []⟩
            · split at ho
              · exact .inl ⟨_, ho ▸ p.head_goes _ _⟩
              · rw [ho]
                exact .inr ⟨rfl, rfl, _, rfl⟩

namespace Draining

variable {d : Draining} {i : PollInput}

/-- What the record of an iteration says about the poller, until it ends. -/
structure Tracked (d : Draining) : Prop where
  batch : d.poll.stage = .batch → d.first = d.poll.lastSeq ∧ d.fresh = false
  switched : d.poll.stage = .prev ∨ d.poll.stage = .ack →
    d.poll.lastSeq = 0 ∧ (d.advanced = true ↔ d.fresh = true ∨ d.first < 0)

theorem head_arrives {p : LogPoll} {lines : List LogLine} {o : TaskOut LogPoll} (h : p.Goes lines o)
    (hends : o.next.ends = false) : o.task.stage = .batch ∨ o.task.stage.sleeps = true := by
  rcases h.next with ⟨hs, -⟩ | hf | ⟨hb, -⟩
  · exact .inr hs
  · rw [hf] at hends
    cases hends
  · exact .inl hb

theorem step_next (hd : d.next.ends = false) : (d.step i).next = (d.out i).next := by
  unfold step
  rw [hd]
  dsimp only
  cases (d.out i).task.stage <;> rfl

theorem step_arrives (hd : d.next.ends = false)
    (h : (d.out i).task.stage = .batch ∨ (d.out i).task.stage.sleeps = true) :
    d.step i = { poll := (d.out i).task, next := (d.out i).next, seen := d.seen
                 first := (d.out i).task.lastSeq } := by
  unfold step
  rw [hd]
  dsimp only
  rcases h with h | h
  · simp only [h]
    rfl
  · cases hs : (d.out i).task.stage with
    | asleep | paused => rfl
    | _ => simp [hs, LogStage.sleeps] at h

theorem step_acks (hd : d.next.ends = false) (h : (d.out i).task = { d.poll with stage := .ack }) :
    d.step i = { d with poll := { d.poll with stage := .ack }, next := (d.out i).next } := by
  unfold step
  rw [hd]
  dsimp only
  rw [h]
  rfl

theorem step_switches (hd : d.next.ends = false) {boot : Int}
    (h : (d.out i).task = { d.poll with bootId := some boot, lastSeq := 0, stage := .prev }) :
    d.step i = { poll := { d.poll with bootId := some boot, lastSeq := 0, stage := .prev }
                 next := (d.out i).next, seen := boot :: d.seen, first := d.first
                 fresh := decide (boot ∉ d.seen), advanced := d.met i } := by
  unfold step
  rw [hd]
  dsimp only
  rw [h]
  rfl

theorem batch_cases (hs : d.poll.stage = .batch) :
    (d.out i).next.ends = true ∨
    ((d.out i).task.stage = .asleep ∧ (d.out i).next.isCall = false ∧
      ((d.out i).task.lastSeq = d.poll.lastSeq ∨ ∃ res rs, i.res = .ok res ∧
        (res.get (py "records")).or (.arr []) = .arr rs ∧ maxSeq rs = .ok (d.out i).task.lastSeq)) ∨
    (∃ res boot, i.res = .ok res ∧ (res.get (py "boot_id")).toIntOr 0 = .ok boot ∧
      (boot ≠ 0 ∧ d.poll.bootId ≠ some boot) ∧ (d.out i).next = .call logReadPrevCall ∧
      (d.out i).task = { d.poll with bootId := some boot, lastSeq := 0, stage := .prev }) ∨
    ∃ res boot rs s p lines, i.res = .ok res ∧ (res.get (py "boot_id")).toIntOr 0 = .ok boot ∧
      ¬(boot ≠ 0 ∧ d.poll.bootId ≠ some boot) ∧ (res.get (py "records")).or (.arr []) = .arr rs ∧
      64 ≤ rs.length ∧ maxSeq rs = .ok s ∧ LogPoll.Goes p lines (d.out i) ∧ p.lastSeq = s := by
  unfold out LogPoll.resume
  rw [hs]
  cases hres : i.res with
  | error e => exact .inl rfl
  | ok res =>
      rcases d.poll.onBatch_cases i.st i.now res with h | ⟨hstage, ⟨ns, h⟩, hseq⟩ | ⟨boot, hboot, hnew, h, htask⟩ |
        ⟨boot, rs, s, p, st, lines, hboot, hold, hrs, hfull, hmax, h, hp⟩
      · exact .inl (by rw [h]; rfl)
      · exact .inr (.inl ⟨hstage, by rw [h]; rfl, hseq.imp_right fun ⟨rs, hrs⟩ => ⟨res, rs, rfl, hrs⟩⟩)
      · exact .inr (.inr (.inl ⟨res, boot, rfl, hboot, hnew, h, htask⟩))
      · exact .inr (.inr (.inr ⟨res, boot, rs, s, p, lines, rfl, hboot, hold, hrs, hfull, hmax,
          by dsimp only; rw [h]; exact p.head_goes st lines, hp⟩))

theorem met_batch (hs : d.poll.stage = .batch) {res : Dict} (hres : i.res = .ok res) :
    d.met i = d.advances res := by
  unfold met
  rw [hs, hres]

theorem met_of_ne (hs : d.poll.stage ≠ .batch) : d.met i = d.advanced := by
  unfold met
  split
  · contradiction
  · rfl

theorem advances_new {res : Dict} {boot : Int} (hboot : (res.get (py "boot_id")).toIntOr 0 = .ok boot)
    (hnew : boot ≠ 0 ∧ d.poll.bootId ≠ some boot) :
    d.advances res = true ↔ boot ∉ d.seen ∨ d.poll.lastSeq < 0 := by
  unfold advances
  rw [hboot]
  dsimp only
  rw [if_pos hnew, decide_eq_true_iff]

theorem advances_full {res : Dict} {boot s : Int} {rs : List Json}
    (hboot : (res.get (py "boot_id")).toIntOr 0 = .ok boot)
    (hold : ¬(boot ≠ 0 ∧ d.poll.bootId ≠ some boot))
    (hrs : (res.get (py "records")).or (.arr []) = .arr rs) (hfull : 64 ≤ rs.length)
    (hmax : maxSeq rs = .ok s) : d.advances res = true ↔ d.poll.lastSeq < s := by
  unfold advances
  rw [hboot]
  dsimp only
  rw [if_neg hold, hrs]
  dsimp only
  rw [hmax]
  simp [hfull]

/-- An iteration that starts over has made progress exactly if its reply met `advances`. -/
theorem Tracked.progress_iff (h : Tracked d) (hs : d.startsOver i = true) :
    d.Progress i ↔ d.met i = true := by
  simp only [startsOver, Bool.and_eq_true, Bool.not_eq_true'] at hs
  obtain ⟨⟨⟨hd, hsleeps⟩, hnext⟩, harrive⟩ := hs
  unfold Progress
  by_cases hb : d.poll.stage = .batch
  · obtain ⟨hfirst, hfresh⟩ := h.batch hb
    rcases batch_cases (i := i) hb with hf | ⟨hstage, -⟩ | ⟨res, boot, -, -, -, -, htask⟩ |
      ⟨res, boot, rs, s, p, lines, hres, hboot, hold, hrs, hfull, hmax, hgoes, rfl⟩
    · rw [hf] at hnext
      cases hnext
    · rw [hstage] at harrive
      cases harrive
    · rw [htask] at harrive
      cases harrive
    · rw [met_batch hb hres, advances_full hboot hold hrs hfull hmax, hfresh, hfirst, hgoes.lastSeq]
      simp
  · have hswitched : d.poll.stage = .prev ∨ d.poll.stage = .ack := by
      cases hstage : d.poll.stage with
      | batch => exact absurd hstage hb
      | asleep | paused => simp [hstage, LogStage.sleeps] at hsleeps
      | prev => exact .inl rfl
      | ack => exact .inr rfl
    obtain ⟨hzero, hadv⟩ := h.switched hswitched
    rw [met_of_ne hb, hadv]
    rcases LogPoll.resume_cases hb i.st i.now i.res with ⟨lines, hgoes⟩ | ⟨-, htask, -⟩
    · rw [show (d.out i).task.lastSeq = 0 from hgoes.lastSeq.trans hzero]
    · rw [show (d.out i).task = _ from htask] at harrive
      cases harrive

theorem Tracked.step (h : d.next.ends = false → Tracked d) :
    (d.step i).next.ends = false → Tracked (d.step i) := by
  intro hnext
  cases hd : d.next.ends with
  | true =>
      unfold Draining.step at hnext
      rw [hd] at hnext
      exact absurd hd (by simpa using hnext)
  | false =>
      have h := h hd
      have harrives : (d.out i).task.stage = .batch ∨ (d.out i).task.stage.sleeps = true → Tracked (d.step i) := by
        intro ha
        rw [step_arrives hd ha]
        refine ⟨fun _ => ⟨rfl, rfl⟩, fun hstage => ?_⟩
        dsimp only at hstage
        rcases hstage with hstage | hstage <;> simp [hstage, LogStage.sleeps] at ha
      rw [step_next hd] at hnext
      by_cases hb : d.poll.stage = .batch
      · obtain ⟨hfirst, hfresh⟩ := h.batch hb
        rcases batch_cases (i := i) hb with hf | ⟨hstage, -⟩ | ⟨res, boot, hres, hboot, hnew, -, htask⟩ |
          ⟨res, boot, rs, s, p, lines, -, -, -, -, -, -, hgoes, -⟩
        · rw [hf] at hnext
          cases hnext
        · exact harrives (.inr (by rw [hstage]; rfl))
        · rw [step_switches hd htask]
          refine ⟨fun hstage => ?_, fun _ => ⟨rfl, ?_⟩⟩
          · cases hstage
          · dsimp only
            rw [met_batch hb hres, advances_new hboot hnew, hfirst, decide_eq_true_iff]
        · exact harrives (head_arrives hgoes hnext)
      · rcases LogPoll.resume_cases hb i.st i.now i.res with ⟨lines, hgoes⟩ | ⟨hprev, htask, -⟩
        · exact harrives (head_arrives hgoes hnext)
        · rw [step_acks hd htask]
          refine ⟨fun hstage => ?_, fun _ => h.switched (.inl hprev)⟩
          cases hstage

/-! ## The rank -/

/-- The boot ids and the numbers of a reply to `log_read` are bounded. -/
def Bounded (boots : List Int) (top : Nat) (d : Draining) (i : PollInput) : Prop :=
  d.poll.stage = .batch → ∀ res, i.res = .ok res →
    (∀ boot, (res.get (py "boot_id")).toIntOr 0 = .ok boot → boot ∈ boots) ∧
      ∀ rs, (res.get (py "records")).or (.arr []) = .arr rs → ∀ r ∈ rs, ∀ s, maxSeq.recordSeq r = .ok s →
        -(top : Int) ≤ s ∧ s ≤ top

def stageRank : LogStage → Int
  | .prev => 2
  | .ack | .asleep | .paused => 1
  | .batch => 0

/-- Unseen boot ids first, then what `last_seq` can still grow, then the stage. -/
def rank (boots : List Int) (top : Nat) (d : Draining) : Int :=
  3 * ((boots.filter (· ∉ d.seen)).length * (top + 1) + (top - d.poll.lastSeq)) + stageRank d.poll.stage

theorem maxSeq_mem {rs : List Json} {s : Int} (h : maxSeq rs = .ok s) :
    ∃ r ∈ rs, maxSeq.recordSeq r = .ok s := by
  induction rs generalizing s with
  | nil => cases h
  | cons r rs ih =>
      cases rs with
      | nil => exact ⟨r, List.mem_cons_self, h⟩
      | cons r' rs =>
          cases hr : maxSeq.recordSeq r with
          | error e => simp [maxSeq, hr, bind, Except.bind] at h
          | ok a =>
              cases hrest : maxSeq (r' :: rs) with
              | error e => simp [maxSeq, hr, hrest, bind, Except.bind] at h
              | ok b =>
                  have hs : max a b = s := by simpa [maxSeq, hr, hrest, bind, Except.bind, pure, Except.pure] using h
                  rcases max_choice a b with hmax | hmax
                  · exact ⟨r, List.mem_cons_self, by rw [hr, ← hs, hmax]⟩
                  · obtain ⟨x, hx, hxb⟩ := ih hrest
                    exact ⟨x, .tail _ hx, by rw [hxb, ← hs, hmax]⟩

variable {boots : List Int} {top : Nat}

theorem Bounded.maxSeq (h : Bounded boots top d i) (hs : d.poll.stage = .batch) {res : Dict} {rs : List Json}
    {s : Int} (hres : i.res = .ok res) (hrs : (res.get (py "records")).or (.arr []) = .arr rs)
    (hmax : maxSeq rs = .ok s) : -(top : Int) ≤ s ∧ s ≤ top := by
  obtain ⟨r, hr, hseq⟩ := maxSeq_mem hmax
  exact (h hs res hres).2 rs hrs r hr s hseq

/-- The cursor of a poller that goes on stays within the bound. -/
structure Within (top : Nat) (d : Draining) : Prop where
  lower : -(top : Int) ≤ d.poll.lastSeq
  upper : d.poll.lastSeq ≤ top

theorem Within.step (h : d.next.ends = false → Within top d) (hb : Bounded boots top d i) :
    (d.step i).next.ends = false → Within top (d.step i) := by
  intro hnext
  cases hd : d.next.ends with
  | true =>
      unfold Draining.step at hnext
      rw [hd] at hnext
      exact absurd hd (by simpa using hnext)
  | false =>
      have h := h hd
      have harrives : (d.out i).task.stage = .batch ∨ (d.out i).task.stage.sleeps = true →
          -(top : Int) ≤ (d.out i).task.lastSeq ∧ (d.out i).task.lastSeq ≤ top → Within top (d.step i) := by
        intro ha hle
        rw [step_arrives hd ha]
        exact ⟨hle.1, hle.2⟩
      rw [step_next hd] at hnext
      by_cases hs : d.poll.stage = .batch
      · rcases batch_cases (i := i) hs with hf | ⟨hstage, -, hseq⟩ | ⟨res, boot, -, -, -, -, htask⟩ |
          ⟨res, boot, rs, s, p, lines, hres, -, -, hrs, -, hmax, hgoes, rfl⟩
        · rw [hf] at hnext
          cases hnext
        · refine harrives (.inr (by rw [hstage]; rfl)) ?_
          rcases hseq with hseq | ⟨res, rs, hres, hrs, hmax⟩
          · rw [hseq]
            exact ⟨h.lower, h.upper⟩
          · exact hb.maxSeq hs hres hrs hmax
        · rw [step_switches hd htask]
          exact ⟨Int.neg_nonpos_of_nonneg (Int.natCast_nonneg top), Int.natCast_nonneg top⟩
        · refine harrives (head_arrives hgoes hnext) ?_
          rw [hgoes.lastSeq]
          exact hb.maxSeq hs hres hrs hmax
      · rcases LogPoll.resume_cases hs i.st i.now i.res with ⟨lines, hgoes⟩ | ⟨-, htask, -⟩
        · refine harrives (head_arrives hgoes hnext) ?_
          rw [show (d.out i).task.lastSeq = d.poll.lastSeq from hgoes.lastSeq]
          exact ⟨h.lower, h.upper⟩
        · rw [step_acks hd htask]
          exact ⟨h.lower, h.upper⟩

theorem filter_seen (boots : List Int) (boot : Int) (seen : List Int) :
    boots.filter (· ∉ boot :: seen) = (boots.filter (· ∉ seen)).filter (· ≠ boot) := by
  rw [List.filter_filter]
  refine List.filter_congr fun b _ => ?_
  simp [not_or]

theorem filter_seen_lt {boot : Int} {seen : List Int} (hb : boot ∈ boots) (hnew : boot ∉ seen) :
    (boots.filter (· ∉ boot :: seen)).length < (boots.filter (· ∉ seen)).length := by
  rw [filter_seen]
  refine List.length_filter_lt_length_iff_exists.mpr ⟨boot, ?_, by simp⟩
  simpa using ⟨hb, hnew⟩

theorem filter_seen_le (boots : List Int) (boot : Int) (seen : List Int) :
    (boots.filter (· ∉ boot :: seen)).length ≤ (boots.filter (· ∉ seen)).length := by
  rw [filter_seen]
  exact List.length_filter_le ..

theorem stage_of_call {p : LogPoll} {lines : List LogLine} {o : TaskOut LogPoll} (h : p.Goes lines o)
    (hcall : o.next.isCall = true) : o.task.stage = .batch := by
  rcases h.next with ⟨-, ns, hs⟩ | hf | ⟨hb, -⟩
  · rw [hs] at hcall
    cases hcall
  · rw [hf] at hcall
    cases hcall
  · exact hb

/-- A step that suspends in a request lowers the rank. -/
theorem rank_step (hw : Within top d) (hd : d.next.ends = false) (hb : Bounded boots top d i)
    (hmet : d.met i = true) (hcall : (d.step i).next.isCall = true) :
    rank boots top (d.step i) < rank boots top d := by
  have hupper := hw.upper
  rw [step_next hd] at hcall
  unfold rank
  by_cases hs : d.poll.stage = .batch
  · rw [hs]
    rcases batch_cases (i := i) hs with hf | ⟨-, hno, -⟩ | ⟨res, boot, hres, hboot, hnew, -, htask⟩ |
      ⟨res, boot, rs, s, p, lines, hres, hboot, hold, hrs, hfull, hmax, hgoes, hseq⟩
    · cases hn : (d.out i).next <;> rw [hn] at hf hcall <;> contradiction
    · rw [hno] at hcall
      cases hcall
    · rw [step_switches hd htask]
      rw [met_batch hs hres, advances_new hboot hnew] at hmet
      dsimp only [stageRank]
      rcases hmet with hfresh | hneg
      · -- one unseen boot id less
        have hlt := filter_seen_lt ((hb hs res hres).1 boot hboot) hfresh
        generalize (boots.filter (· ∉ boot :: d.seen)).length = n at hlt ⊢
        generalize (boots.filter (· ∉ d.seen)).length = m at hlt ⊢
        have hmul : ((n : Int) + 1) * (top + 1) ≤ m * (top + 1) :=
          Int.mul_le_mul_of_nonneg_right (by exact_mod_cast hlt) (by omega)
        rw [Int.add_mul, Int.one_mul] at hmul
        omega
      · have hle := filter_seen_le boots boot d.seen
        generalize (boots.filter (· ∉ boot :: d.seen)).length = n at hle ⊢
        generalize (boots.filter (· ∉ d.seen)).length = m at hle ⊢
        have hmul : (n : Int) * (top + 1) ≤ m * (top + 1) :=
          Int.mul_le_mul_of_nonneg_right (by exact_mod_cast hle) (by omega)
        omega
    · have hstage := stage_of_call hgoes hcall
      rw [met_batch hs hres, advances_full hboot hold hrs hfull hmax] at hmet
      rw [step_arrives hd (.inl hstage)]
      dsimp only
      rw [hstage, hgoes.lastSeq, hseq]
      dsimp only [stageRank]
      omega
  · rcases LogPoll.resume_cases hs i.st i.now i.res with ⟨lines, hgoes⟩ | ⟨hprev, htask, -⟩
    · have hstage : (d.out i).task.stage = .batch := stage_of_call hgoes hcall
      rw [step_arrives hd (.inl hstage)]
      dsimp only
      rw [hstage, show (d.out i).task.lastSeq = d.poll.lastSeq from hgoes.lastSeq]
      have hpos : 0 < stageRank d.poll.stage := by
        cases hst : d.poll.stage with
        | batch => exact absurd hst hs
        | _ => decide
      dsimp only [stageRank] at hpos ⊢
      omega
    · rw [step_acks hd htask, hprev]
      dsimp only [stageRank]
      omega

theorem rank_nonneg (hw : Within top d) : 0 ≤ rank boots top d := by
  have hupper := hw.upper
  have hstage : 0 ≤ stageRank d.poll.stage := by cases d.poll.stage <;> decide
  have hmul : (0 : Int) ≤ (boots.filter (· ∉ d.seen)).length * (top + 1) :=
    Int.mul_nonneg (Int.natCast_nonneg _) (by omega)
  unfold rank
  omega

theorem rank_le (hw : Within top d) : rank boots top d ≤ 3 * (boots.length * (top + 1) + 2 * top) + 2 := by
  have hlower := hw.lower
  have hstage : stageRank d.poll.stage ≤ 2 := by cases d.poll.stage <;> decide
  have hmul : ((boots.filter (· ∉ d.seen)).length : Int) * (top + 1) ≤ boots.length * (top + 1) :=
    Int.mul_le_mul_of_nonneg_right (by exact_mod_cast List.length_filter_le ..) (by omega)
  unfold rank
  omega

/-- A step that suspends in a request, in an iteration that meets `advances`. -/
def Hurries (d : Draining) (i : PollInput) : Prop := d.met i = true ∧ (d.step i).next.isCall = true

theorem Hurries.goes_on (h : Hurries d i) : d.next.ends = false ∧ (d.step i).next.ends = false := by
  have hcall := h.2
  constructor
  · by_contra hd
    rw [Bool.not_eq_false] at hd
    have hstep : d.step i = d := by
      unfold Draining.step
      rw [hd]
      rfl
    rw [hstep] at hcall
    cases hn : d.next <;> rw [hn] at hd hcall <;> contradiction
  · cases hn : (d.step i).next with
    | call => rfl
    | _ =>
        rw [hn] at hcall
        cases hcall

/-- In every run an iteration that starts over without a sleep has made progress exactly if its reply
meets `advances`; and where all replies do, with bounded boot ids and numbers, the poller sleeps or ends
after a bounded number of replies. -/
theorem unpaced_progress_iff (started : Clock) :
    (∀ is, Run.Along step (fun d i => d.startsOver i = true → (d.Progress i ↔ d.met i = true))
      (init started) is) ∧
    ∀ (boots : List Int) (top : Nat) (is js : List PollInput),
      Run.Along step (Bounded boots top) (init started) (is ++ js) →
        Run.Along step Hurries (Run.run step (init started) is) js →
          (js.length : Int) ≤ 3 * (boots.length * (top + 1) + 2 * top) + 2 := by
  constructor
  · intro is
    refine Run.along_of_invariant (P := fun d => d.next.ends = false → Tracked d)
      (fun d i h => Tracked.step h) (fun d i h hs => ?_) (fun _ => ⟨fun h => ?_, fun h => ?_⟩) is
    · have hd : d.next.ends = false := by
        simp only [startsOver, Bool.and_eq_true, Bool.not_eq_true'] at hs
        exact hs.1.1.1
      exact (h hd).progress_iff hs
    · cases h
    · rcases h with h | h <;> cases h
  · intro boots top is js hbounded hhurry
    obtain ⟨hpre, hpost⟩ := Run.along_append.mp hbounded
    have hwithin : (Run.run step (init started) is).next.ends = false →
        Within top (Run.run step (init started) is) :=
      Run.invariant (P := fun d => d.next.ends = false → Within top d) (fun d i h hb => Within.step h hb) hpre
        fun _ => ⟨Int.neg_nonpos_of_nonneg (Int.natCast_nonneg top), Int.natCast_nonneg top⟩
    cases js with
    | nil =>
        have hmul : (0 : Int) ≤ boots.length * (top + 1) := Int.mul_nonneg (Int.natCast_nonneg _) (by omega)
        rw [List.length_nil]
        omega
    | cons j js =>
        have hw := hwithin hhurry.1.goes_on.1
        refine Int.le_trans (Run.length_le_rank (P := Within top) (μ := rank boots top) ?_
          (fun d hd => rank_nonneg hd) (hpost.and hhurry) hw) (rank_le hw)
        intro d i hw ⟨hb, hh⟩
        exact ⟨Within.step (fun _ => hw) hb hh.goes_on.2, rank_step hw hh.goes_on.1 hb hh.1 hh.2⟩

/-- A boot id, no previous-boot log, and a full batch with the numbers 1 to 64. -/
def numberedReplies : List PollInput :=
  let st : Shadow := { online := true }
  [⟨st, seconds 3, .ok [(py "boot_id", .int 7)]⟩, ⟨st, seconds 4, .error .timeoutError⟩,
   ⟨st, seconds 5, .ok [(py "boot_id", .int 7),
     (py "records", .arr ((List.range 64).map fun n : Nat => .obj [(py "s", .int (n + 1))]))]⟩]

theorem unpaced_progress_iff_sample :
    Run.Along step Hurries (Run.run step (init 0) [⟨{ online := true }, seconds 3, .ok []⟩]) numberedReplies ∧
      (numberedReplies.length : Int) ≤ 3 * (1 * (64 + 1) + 2 * 64) + 2 := by
  have hbounded : Run.Along step (Bounded [7] 64) (init 0)
      ([⟨{ online := true }, seconds 3, .ok []⟩] ++ numberedReplies) := by
    have hone : ∀ boot, (Json.int 7).toIntOr 0 = .ok boot → boot ∈ [(7 : Int)] := by
      rintro boot ⟨⟩
      decide
    refine ⟨fun h => absurd h (by decide), fun _ res hres => ?_, fun _ res hres => ?_, fun _ res hres => ?_, trivial⟩
    · cases hres
      exact ⟨hone, fun rs hrs r hr => (by cases hrs; cases hr)⟩
    · cases hres
    · cases hres
      refine ⟨hone, fun rs hrs r hr s hs => ?_⟩
      cases hrs
      obtain ⟨n, hn, rfl⟩ := List.mem_map.mp hr
      cases hs
      have hn := List.mem_range.mp hn
      omega
  have hhurry : Run.Along step Hurries (Run.run step (init 0) [⟨{ online := true }, seconds 3, .ok []⟩])
      numberedReplies :=
    ⟨⟨rfl, rfl⟩, ⟨rfl, rfl⟩, ⟨by decide +kernel, by decide +kernel⟩, trivial⟩
  exact ⟨hhurry, (unpaced_progress_iff 0).2 [7] 64 _ _ hbounded hhurry⟩

/-- A boot id, no previous-boot log, and then full batches without numbers. -/
def firstReplies : List PollInput :=
  let st : Shadow := { online := true }
  [⟨st, seconds 3, .ok []⟩, ⟨st, seconds 3, .ok [(py "boot_id", .int 7)]⟩, ⟨st, seconds 4, .error .timeoutError⟩]

def unnumberedBatch : PollInput where
  st := { online := true }
  now := seconds 5
  res := .ok [(py "boot_id", .int 7), (py "records", .arr (List.replicate 64 (.obj [(py "t", .str (py "x"))])))]

/-- What each of these batches finds and leaves. -/
def stuck : Draining where
  poll := { started := 0, bootId := some 7, stage := .batch }
  next := .call (logReadCall 0)
  seen := [7]

set_option maxRecDepth 4000 in
theorem stuck_step : stuck.step unnumberedBatch = stuck := rfl

/-- The poller asks for them again and again without a sleep. -/
theorem unnumbered_batches_never_sleep :
    (stuck.startsOver unnumberedBatch = true ∧ ¬stuck.Progress unnumberedBatch) ∧
      ∀ n, Run.run step (init 0) (firstReplies ++ List.replicate n unnumberedBatch) = stuck := by
  refine ⟨⟨by decide +kernel, ?_⟩, fun n => ?_⟩
  · rintro (h | h)
    · cases h
    · exact absurd h (by decide +kernel)
  · have hfirst : Run.run step (init 0) firstReplies = stuck := rfl
    rw [Run.run_append, hfirst]
    induction n with
    | zero => rfl
    | succ n ih => rw [List.replicate_succ, Run.run_cons, stuck_step, ih]

end Draining

end Fountainer
