import Mathlib.Data.List.Pairwise
import Fountainer.System.Backfill

/-!
# The order of device samples in the chart

One boot of a device with its clock, polled as in `Backfill`. Every reply is placed by the server's clock
when it is read, so a reply that has been under way for longer than the next one is placed later than it
should be.
-/

namespace Fountainer

/-- Where the last device sample has been placed: the server's clock less `now_ms`, and its `ts_ms`. -/
structure Placed where
  anchor : Int
  tsMs : Int

/-- One boot of a device and its polls. -/
structure Timeline where
  pull : Backfill
  /-- When the device was switched on. -/
  bootedAt : Clock
  /-- The stamp of the newest sample. -/
  newest : Int := 0
  askedAt : Clock := 0
  last : Option Placed := none

inductive TimelineStep
  | tick (ns : Nat)
  /-- The rest of the application leaves the shadow `st`, up to the cursor and the chart. -/
  | app (st : Shadow)
  /-- A live sample. -/
  | live (t : Int) (p r : Json)
  | connect
  | produce (x : Measured)
  | overwrite
  | wake
  | answer (other : Dict)
  | deliver
  | fail

namespace Timeline

/-- The uptime of the device. -/
def uptime (s : Timeline) : Int := Clock.ms (s.pull.now - s.bootedAt)

/-- The request has not timed out. -/
def inTime (s : Timeline) : Bool := s.pull.now - s.askedAt < seconds 10

/-- The reply that is under way. -/
def reply (s : Timeline) : Option HistoryReply :=
  match s.pull.poll with
  | .answered b fields nowMs other => some (b.reply fields nowMs other)
  | _ => none

/-- The samples of a reply that are new. -/
def news (s : Timeline) (r : HistoryReply) : List (Int × Reading) :=
  r.news (s.pull.shadow.cursorFor r.ring.boot r.ring.next)

/-- The server's clock less `now_ms`: the same for all replies that are under way for the same time. -/
def anchor (s : Timeline) (r : HistoryReply) : Int := s.pull.now.ms - r.nowMs

/-- Where the last sample is placed after a reply. -/
def placed (s : Timeline) (r : HistoryReply) : Option Placed :=
  match (s.news r).getLast? with
  | some row => some ⟨s.anchor r, row.2.tsMs⟩
  | none => s.last

def step (lim : Limits) (s : Timeline) : TimelineStep → Timeline
  | .tick ns => { s with pull := s.pull.step lim (.tick ns) }
  | .app st => { s with pull := s.pull.step lim (.app st) }
  | .live t p r => { s with pull := s.pull.step lim (.live t p r) }
  | .connect => { s with pull := s.pull.step lim .connect }
  | .produce x =>
      if s.newest ≤ x.1.tsMs ∧ x.1.tsMs ≤ s.uptime then
        { s with pull := s.pull.step lim (.produce x), newest := x.1.tsMs }
      else s
  | .overwrite => { s with pull := s.pull.step lim .overwrite }
  | .wake => { s with pull := s.pull.step lim .wake, askedAt := s.pull.now }
  | .answer other => { s with pull := s.pull.step lim (.answer s.uptime other) }
  | .deliver => match s.reply with
      | some r =>
          if s.inTime then { s with pull := s.pull.step lim .deliver, last := s.placed r } else s
      | none => s
  | .fail => { s with pull := s.pull.step lim .fail }

/-- A device with a boot id or without, and a server that has not seen it. -/
def init (bootId : Option Int) (bootedAt now : Clock) : Timeline :=
  { pull := { Backfill.init bootId with now }, bootedAt }

abbrev after (lim : Limits) (bootId : Option Int) (bootedAt now : Clock) (es : List TimelineStep) : Timeline :=
  Run.run (step lim) (init bootId bootedAt now) es

/-- The samples of the device in the chart are in ascending order. -/
def InOrder (s : Timeline) : Prop := (s.pull.shadow.hist.filterMap Sample.seq).Pairwise (· < ·)

instance (s : Timeline) : Decidable s.InOrder := inferInstanceAs (Decidable (List.Pairwise _ _))

/-- The anchor of a reply with new samples has not gone back, since the last one, by more than the device
has advanced between the samples. -/
def ok (s : Timeline) : TimelineStep → Bool
  | .deliver => match s.reply with
      | some r => !s.inTime || s.last.all fun l =>
          (s.news r).head?.all fun row => l.anchor - s.anchor r ≤ row.2.tsMs - l.tsMs
      | none => true
  | _ => true

abbrev Along (lim : Limits) (bootId : Option Int) (bootedAt now : Clock) (es : List TimelineStep) : Prop :=
  Run.Along (step lim) (fun s e => s.ok e = true) (init bootId bootedAt now) es

end Timeline

/-! ## The chart of ordered calls -/

/-- If both are samples of the device, the first has the lower number and is not placed later. -/
def InTime (a b : Option Int × Int) : Prop := ∀ p q, a.1 = some p → b.1 = some q → p < q ∧ a.2 ≤ b.2

theorem inserted_timed (calls : List HistCall) :
    (inserted calls).map (fun x => (x.seq, x.t)) = calls.map fun c => (c.seq, c.t) := by
  have h : (inserted calls).map (fun x => (x.seq, x.t)) =
      ((calls.zipIdx 1).map Prod.fst).map fun c => (c.seq, c.t) := by
    rw [inserted, List.map_map, List.map_map]
    rfl
  rw [h, List.zipIdx_map_fst]

/-- Calls in time leave the device samples in the order of the calls. -/
theorem addAll_inOrder (lim : Limits) {calls : List HistCall}
    (h : (calls.map fun c => (c.seq, c.t)).Pairwise InTime) :
    ((Shadow.addAll lim {} calls).hist.filterMap Sample.seq).Pairwise (· < ·) := by
  -- two samples are related by their numbers
  let R : Sample → Sample → Prop := fun x y => (x.i < y.i → InTime (x.seq, x.t) (y.seq, y.t)) ∧
    (y.i < x.i → InTime (y.seq, y.t) (x.seq, x.t)) ∧ (x.i = y.i → x = y)
  have htimed : (inserted calls).Pairwise fun x y => InTime (x.seq, x.t) (y.seq, y.t) := by
    rw [← inserted_timed] at h
    exact List.pairwise_map.mp h
  have hnumbers : (inserted calls).Pairwise fun x y => x.i < y.i := by
    have := List.pairwise_lt_range' (s := 1) (n := calls.length)
    rw [← inserted_numbers] at this
    exact List.pairwise_map.mp this
  have hpairs : (inserted calls).Pairwise R := by
    refine (htimed.and hnumbers).imp fun {x y} hxy => ?_
    exact ⟨fun _ => hxy.1, fun hlt => absurd hlt (Nat.lt_asymm hxy.2), fun he => absurd he (Nat.ne_of_lt hxy.2)⟩
  have hself : ∀ x ∈ inserted calls, R x x := fun x _ =>
    ⟨fun hlt => absurd hlt (Nat.lt_irrefl _), fun hlt => absurd hlt (Nat.lt_irrefl _), fun _ => rfl⟩
  have hflip : (inserted calls).Pairwise (flip R) :=
    hpairs.imp fun {x y} hxy => ⟨hxy.2.1, hxy.1, fun he => (hxy.2.2 he.symm).symm⟩
  have hall : ∀ x ∈ inserted calls, ∀ y ∈ inserted calls, R x y := fun x hx y hy =>
    hpairs.forall_of_forall_of_flip hself hflip hx hy
  rw [addAll_hist]
  refine List.Pairwise.sublist ((keepLast_sublist _ _).filterMap _) ?_
  refine List.pairwise_filterMap.mpr ((sort_inserted_older calls).imp_of_mem fun {x y} hx hy hold => ?_)
  have hx := (Stable.sort_perm _ _).mem_iff.mp hx
  have hy := (Stable.sort_perm _ _).mem_iff.mp hy
  obtain ⟨hlt, hgt, heq⟩ := hall x hx y hy
  intro p hp q hq
  rcases Nat.lt_trichotomy x.i y.i with hi | hi | hi
  · exact (hlt hi p q hp hq).1
  · cases heq hi
    rcases hold with ht | ⟨-, hi⟩
    · exact absurd ht (Int.lt_irrefl _)
    · exact absurd hi (Nat.lt_irrefl _)
  · have hle := (hgt hi q p hq hp).2
    rcases hold with ht | ⟨-, hi'⟩
    · exact absurd hle (Int.not_le.mpr ht)
    · exact absurd hi' (Nat.lt_asymm hi)

/-! ## The invariant -/

namespace Timeline

/-- The samples of a ring are stamped in ascending order, up to `t`. -/
structure Stamped (r : Ring) (t : Int) : Prop where
  sorted : r.readings.Pairwise fun x y => x.tsMs ≤ y.tsMs
  le : ∀ x ∈ r.readings, x.tsMs ≤ t

theorem Stamped.produce {r : Ring} {t : Int} {x : Reading} (h : Stamped r t) (hx : t ≤ x.tsMs) :
    Stamped (r.produce x) x.tsMs where
  sorted := by
    refine List.pairwise_append.mpr ⟨h.sorted, List.pairwise_singleton .., fun y hy z hz => ?_⟩
    cases List.mem_singleton.mp hz
    exact Int.le_trans (h.le y hy) hx
  le := by
    intro y hy
    rcases List.mem_append.mp hy with hy | hy
    · exact Int.le_trans (h.le y hy) hx
    · cases List.mem_singleton.mp hy
      exact Int.le_refl _

theorem Stamped.overwrite {r : Ring} {t : Int} (h : Stamped r t) : Stamped r.overwrite t := by
  unfold Ring.overwrite
  split
  · exact h
  · rename_i x xs hxs
    have hsorted := hxs ▸ h.sorted
    exact ⟨(List.pairwise_cons.mp hsorted).2, fun y hy => h.le y (hxs ▸ List.mem_cons_of_mem _ hy)⟩

/-- The device samples among the calls so far are in order and placed up to the last one. -/
structure Steady (lim : Limits) (s : Timeline) : Prop where
  once : Backfill.Once lim s.pull
  boot : s.pull.boot.no = 0
  ring : Stamped s.pull.boot.ring s.newest
  uptime : ∀ x ∈ s.pull.boot.ring.readings, x.tsMs ≤ s.uptime
  reply : ∀ b fields nowMs other, s.pull.poll = .answered b fields nowMs other → b.no = 0 ∧ Stamped b.ring nowMs
  tagged : ∀ e ∈ s.pull.calls, ∀ q, e.2.seq = some q → e.1 = some 0
  timed : (s.pull.calls.map fun e => (e.2.seq, e.2.t)).Pairwise InTime
  last : ∀ e ∈ s.pull.calls, ∀ q, e.2.seq = some q → ∃ l, s.last = some l ∧ e.2.t ≤ l.anchor + l.tsMs

variable {lim : Limits} {s : Timeline}

theorem Steady.inOrder (h : Steady lim s) : s.InOrder := by
  unfold InOrder
  rw [h.once.chart.1]
  apply addAll_inOrder
  rw [List.map_map]
  exact h.timed

theorem Steady.init (lim : Limits) (bootId : Option Int) (bootedAt now : Clock) :
    Steady lim (init bootId bootedAt now) where
  once := (Backfill.Once.init lim bootId).idle rfl rfl rfl rfl fun _ _ _ _ he => Poll.noConfusion he
  boot := rfl
  ring := ⟨.nil, by simp [Timeline.init, Backfill.init, Boot.start]⟩
  uptime := by simp [Timeline.init, Backfill.init, Boot.start]
  reply := fun _ _ _ _ he => Poll.noConfusion he
  tagged := by simp [Timeline.init, Backfill.init]
  timed := .nil
  last := by simp [Timeline.init, Backfill.init]

/-! ## A reply is read -/

section Reply

variable (r : HistoryReply) (c : Int)

theorem news_readings : ((r.news c).map Prod.snd).Sublist r.ring.readings := by
  have hrows : (r.news c).Sublist r.ring.rows :=
    List.filter_sublist.trans ((List.take_sublist ..).trans List.filter_sublist)
  have := hrows.map Prod.snd
  rwa [Ring.rows, Numbered.consecutive_snd] at this

/-- The new samples ascend in number and stamp. -/
theorem news_stamped {t : Int} (h : Stamped r.ring t) :
    (r.news c).Pairwise fun a b => a.1 < b.1 ∧ a.2.tsMs ≤ b.2.tsMs := by
  have hstamps := List.pairwise_map.mp (h.sorted.sublist (news_readings r c))
  exact (r.rows_sorted.filter_behind c).and hstamps

theorem news_le {t : Int} (h : Stamped r.ring t) : ∀ row ∈ r.news c, row.2.tsMs ≤ t := fun _ hrow =>
  h.le _ ((news_readings r c).subset (List.mem_map_of_mem hrow))

/-- The calls for a reply, by number and place. -/
theorem rowCalls_timed (s : Backfill) (h : Stamped r.ring r.nowMs)
    (hfits : ∀ x ∈ r.ring.readings, x.fits = true) :
    ((s.rowCalls r).map fun c => (c.seq, c.t)) =
      (r.news (s.shadow.cursorFor r.ring.boot r.ring.next)).map fun row =>
        (some row.1, s.now.ms - r.nowMs + row.2.tsMs) := by
  rw [Backfill.rowCalls, Backfill.kept_eq_news hfits, List.map_map]
  refine List.map_congr_left fun row hrow => ?_
  have hle := news_le r _ h row hrow
  simp only [Function.comp, rowCall, Prod.mk.injEq, true_and]
  omega

end Reply

/-- What has been inserted lies up to the cursor with which a reply is read. -/
theorem Steady.seen (h : Steady lim s) {b : Boot} {fields other : Dict} {nowMs : Int}
    (hp : s.pull.poll = .answered b fields nowMs other) :
    ∀ e ∈ s.pull.calls, ∀ q, e.2.seq = some q → q ≤ s.pull.shadow.cursorFor b.ring.boot b.ring.next := by
  intro e he q hq
  obtain ⟨hahead, -, -⟩ := h.once.reply b fields nowMs other hp
  have hmem : (0, q) ∈ s.pull.physical := by
    refine List.mem_filterMap.mpr ⟨e, he, ?_⟩
    obtain ⟨tag, c⟩ := e
    cases h.tagged _ he q hq
    simp only [show c.seq = some q from hq, Option.map_some]
  rcases hahead.cursor.2 _ hmem with hlt | ⟨-, hle⟩
  · rw [(h.reply b fields nowMs other hp).1] at hlt
    exact absurd hlt (Nat.lt_irrefl 0)
  · exact hle

/-- The first new sample is not placed before the last sample so far. -/
def Follows (s : Timeline) (r : HistoryReply) : Prop :=
  ∀ l, s.last = some l → ∀ row, (s.news r).head? = some row → l.anchor + l.tsMs ≤ s.anchor r + row.2.tsMs

theorem Steady.deliver (h : Steady lim s) {b : Boot} {fields other : Dict} {nowMs : Int}
    (hp : s.pull.poll = .answered b fields nowMs other) (hfollows : s.Follows (b.reply fields nowMs other)) :
    Steady lim { s with pull := s.pull.step lim .deliver, last := s.placed (b.reply fields nowMs other) } := by
  obtain ⟨hno, hstamped⟩ := h.reply b fields nowMs other hp
  obtain ⟨-, -, hfits⟩ := h.once.reply b fields nowMs other hp
  have hseen := h.seen hp
  have honce := h.once.step .deliver
  rw [h.once.deliver_eq hp] at honce ⊢
  generalize hr : b.reply fields nowMs other = r at hfollows honce ⊢
  have hstamped : Stamped r.ring r.nowMs := hr ▸ hstamped
  have hfits : ∀ x ∈ r.ring.readings, x.fits = true := hr ▸ hfits
  have hrows : ((s.pull.rowCalls r).map fun c => (c.seq, c.t)) =
      (s.news r).map fun row => (some row.1, s.anchor r + row.2.tsMs) := rowCalls_timed r s.pull hstamped hfits
  have hnews : (s.news r).Pairwise fun a b => a.1 < b.1 ∧ a.2.tsMs ≤ b.2.tsMs := news_stamped r _ hstamped
  have hafter : ∀ row ∈ s.news r, s.pull.shadow.cursorFor b.ring.boot b.ring.next < row.1 := by
    intro row hrow
    rw [← hr] at hrow
    exact ((HistoryReply.news_mem _ _).mp hrow).2
  have hplaced : ∀ e ∈ s.pull.calls, ∀ q, e.2.seq = some q → ∀ row ∈ s.news r,
      e.2.t ≤ s.anchor r + row.2.tsMs := by
    intro e he q hq row hrow
    obtain ⟨l, hl, ht⟩ := h.last e he q hq
    have hfirst := hfollows l hl _ (List.head?_eq_some_head (List.ne_nil_of_mem hrow))
    have hle := (hnews.imp And.right).rel_head_of_rel_head_head hrow (Int.le_refl _)
    omega
  have hcall : ∀ e ∈ s.pull.calls ++ (s.pull.rowCalls r).map fun c => (some b.no, c), ∀ q, e.2.seq = some q →
      e ∈ s.pull.calls ∨ e.1 = some 0 ∧ ∃ row ∈ s.news r, e.2.t = s.anchor r + row.2.tsMs := by
    intro e he q hq
    rcases List.mem_append.mp he with he | he
    · exact .inl he
    · obtain ⟨c, hc, rfl⟩ := List.mem_map.mp he
      have hpair : (c.seq, c.t) ∈ (s.pull.rowCalls r).map fun c => (c.seq, c.t) := List.mem_map_of_mem hc
      rw [hrows] at hpair
      obtain ⟨row, hrow, hrc⟩ := List.mem_map.mp hpair
      exact .inr ⟨congrArg some hno, row, hrow, (Prod.mk.inj hrc).2.symm⟩
  refine ⟨honce, h.boot, h.ring, h.uptime, fun _ _ _ _ he => Poll.noConfusion he, ?_, ?_, ?_⟩
  · intro e he q hq
    rcases hcall e he q hq with hold | ⟨htag, -⟩
    · exact h.tagged e hold q hq
    · exact htag
  · simp only [Backfill.read, List.map_append, List.map_map, Function.comp_def]
    rw [hrows]
    refine List.pairwise_append.mpr ⟨h.timed, ?_, ?_⟩
    · refine List.pairwise_map.mpr (hnews.imp fun {x y} hxy p q hx hy => ?_)
      cases hx
      cases hy
      exact ⟨hxy.1, Int.add_le_add_left hxy.2 _⟩
    · intro x hx y hy p q hxp hyq
      obtain ⟨e, he, rfl⟩ := List.mem_map.mp hx
      obtain ⟨row, hrow, rfl⟩ := List.mem_map.mp hy
      cases hyq
      exact ⟨Int.lt_of_le_of_lt (hseen e he p hxp) (hafter row hrow), hplaced e he p hxp row hrow⟩
  · intro e he q hq
    unfold placed
    rcases hcall e he q hq with hold | ⟨-, row, hrow, ht⟩
    · cases hlast : (s.news r).getLast? with
      | none => exact h.last e hold q hq
      | some row => exact ⟨_, rfl, hplaced e hold q hq row (List.mem_of_getLast? hlast)⟩
    · have hle := (hnews.imp And.right).rel_getLast_of_rel_getLast_getLast hrow (Int.le_refl _)
      rw [List.getLast?_eq_some_getLast (List.ne_nil_of_mem hrow)]
      refine ⟨_, rfl, ?_⟩
      rw [ht]
      exact Int.add_le_add_left hle _

/-! ## Steps -/

theorem Steady.idle (h : Steady lim s) {pull : Backfill} (askedAt : Clock) (honce : Backfill.Once lim pull)
    (hboot : pull.boot = s.pull.boot) (hcalls : pull.calls = s.pull.calls) (hnow : s.pull.now ≤ pull.now)
    (hreply : ∀ b fields nowMs other, pull.poll = .answered b fields nowMs other →
      s.pull.poll = .answered b fields nowMs other) : Steady lim { s with pull, askedAt } where
  once := honce
  boot := hboot ▸ h.boot
  ring := hboot ▸ h.ring
  uptime := by
    intro x hx
    rw [hboot] at hx
    exact Int.le_trans (h.uptime x hx) (Clock.ms_mono (Int.sub_le_sub_right hnow _))
  reply := fun b fields nowMs other he => h.reply b fields nowMs other (hreply b fields nowMs other he)
  tagged := hcalls ▸ h.tagged
  timed := hcalls ▸ h.timed
  last := hcalls ▸ h.last

theorem Steady.live (h : Steady lim s) (t : Int) (p r : Json) :
    Steady lim { s with pull := s.pull.step lim (.live t p r) } where
  once := h.once.step (.live t p r)
  boot := h.boot
  ring := h.ring
  uptime := h.uptime
  reply := h.reply
  tagged := by
    intro e he q hq
    rcases List.mem_append.mp he with he | he
    · exact h.tagged e he q hq
    · cases List.mem_singleton.mp he
      cases hq
  timed := by
    simp only [Backfill.step, List.map_append, List.map_cons, List.map_nil]
    refine List.pairwise_append.mpr ⟨h.timed, List.pairwise_singleton .., fun x _ y hy p q _ hq => ?_⟩
    cases List.mem_singleton.mp hy
    cases hq
  last := by
    intro e he q hq
    rcases List.mem_append.mp he with he | he
    · exact h.last e he q hq
    · cases List.mem_singleton.mp he
      cases hq

theorem Steady.produce (h : Steady lim s) {x : Measured} (hx : s.newest ≤ x.1.tsMs ∧ x.1.tsMs ≤ s.uptime) :
    Steady lim { s with pull := s.pull.step lim (.produce x), newest := x.1.tsMs } where
  once := h.once.step (.produce x)
  boot := h.boot
  ring := h.ring.produce hx.1
  uptime := by
    intro y hy
    rcases List.mem_append.mp hy with hy | hy
    · exact h.uptime y hy
    · cases List.mem_singleton.mp hy
      exact hx.2
  reply := h.reply
  tagged := h.tagged
  timed := h.timed
  last := h.last

theorem Steady.overwrite (h : Steady lim s) : Steady lim { s with pull := s.pull.step lim .overwrite } where
  once := h.once.step .overwrite
  boot := h.boot
  ring := h.ring.overwrite
  uptime := (Stamped.overwrite ⟨h.ring.sorted, h.uptime⟩).le
  reply := h.reply
  tagged := h.tagged
  timed := h.timed
  last := h.last

theorem Steady.answer (h : Steady lim s) (other : Dict) :
    Steady lim { s with pull := s.pull.step lim (.answer s.uptime other) } := by
  have honce := h.once.step (.answer s.uptime other)
  simp only [Backfill.step] at honce ⊢
  cases hp : s.pull.poll with
  | asked fields =>
      simp only [hp] at honce ⊢
      refine ⟨honce, h.boot, h.ring, h.uptime, fun b fields' nowMs other' he => ?_, h.tagged, h.timed, h.last⟩
      cases he
      exact ⟨h.boot, h.ring.sorted, h.uptime⟩
  | asleep | answered b fields nowMs other | finished =>
      simp only [hp] at honce ⊢
      exact h.idle s.askedAt honce rfl rfl (Int.le_refl _) fun _ _ _ _ he => he

theorem Steady.setPoll (h : Steady lim s) {p : Poll} (hp : ∀ b fields nowMs other, p ≠ .answered b fields nowMs other)
    (askedAt : Clock) : Steady lim { s with pull := { s.pull with poll := p }, askedAt } := by
  refine h.idle askedAt ?_ rfl rfl (Int.le_refl _) fun b fields nowMs other he => absurd he (hp b fields nowMs other)
  exact h.once.idle rfl rfl rfl rfl fun b fields nowMs other he => absurd he (hp b fields nowMs other)

theorem Steady.step (h : Steady lim s) {e : TimelineStep} (hok : s.ok e = true) : Steady lim (s.step lim e) := by
  cases e with
  | tick ns =>
      exact h.idle s.askedAt (h.once.step (.tick ns)) rfl rfl
        (Int.le_add_of_nonneg_right (Int.natCast_nonneg _)) fun _ _ _ _ he => he
  | app st =>
      exact h.idle s.askedAt (h.once.step (.app st)) rfl rfl (Int.le_refl _) fun _ _ _ _ he => he
  | live t p r => exact h.live t p r
  | connect =>
      simp only [Timeline.step, Backfill.step]
      split
      · exact h.setPoll (fun _ _ _ _ => Poll.noConfusion) s.askedAt
      · exact h.setPoll (fun _ _ _ _ => Poll.noConfusion) s.askedAt
      · exact h
  | produce x =>
      simp only [Timeline.step]
      split
      · exact h.produce ‹_›
      · exact h
  | overwrite => exact h.overwrite
  | wake =>
      simp only [Timeline.step, Backfill.step]
      split
      · obtain ⟨p, hp, he⟩ := s.pull.resume_asleep lim
        rw [he]
        exact h.setPoll hp s.pull.now
      · exact h.idle s.pull.now h.once rfl rfl (Int.le_refl _) fun _ _ _ _ he => he
  | answer other => exact h.answer other
  | deliver =>
      simp only [Timeline.step]
      simp only [ok] at hok
      cases hp : s.pull.poll with
      | answered b fields nowMs other =>
          have hr : s.reply = some (b.reply fields nowMs other) := by simp only [Timeline.reply, hp]
          simp only [hr] at hok ⊢
          split
          · rename_i hin
            refine h.deliver hp fun l hl row hrow => ?_
            simp only [hin, Bool.not_true, Bool.false_or, hl, Option.all_some, hrow, decide_eq_true_eq] at hok
            omega
          · exact h
      | asleep | asked fields | finished =>
          simp only [Timeline.reply, hp]
          exact h
  | fail =>
      simp only [Timeline.step, Backfill.step]
      split
      · exact h.setPoll (fun _ _ _ _ => Poll.noConfusion) s.askedAt
      · exact h.setPoll (fun _ _ _ _ => Poll.noConfusion) s.askedAt
      · exact h

/-! ## Runs -/

/-- When no anchor goes back further than the device advances, the chart has the samples of the device in
ascending order, after every run. -/
theorem chart_in_device_order (lim : Limits) (bootId : Option Int) (bootedAt now : Clock) (es : List TimelineStep)
    (h : Along lim bootId bootedAt now es) : (after lim bootId bootedAt now es).InOrder :=
  (Run.invariant (fun _ _ hs hok => Steady.step hs hok) h (Steady.init lim bootId bootedAt now)).inOrder

def sampleMeasured (ts : Int) : Measured := ⟨⟨ts, 2401, 1⟩, show (PyFloat.divLit 2401 1000).isOk = true by decide +kernel⟩

/-- Samples after one and two seconds, the second while the first reply is under way; the first reply takes
`ms` milliseconds, the second none. -/
def samplePolls (ms : Nat) : List TimelineStep :=
  [.connect, .app { online := true }, .tick 1000000000, .produce (sampleMeasured 1000), .wake, .answer [],
   .tick 1000000000, .produce (sampleMeasured 2000), .live 3000 .null .null, .tick ((ms - 1000) * 1000000),
   .deliver, .tick 30000000000, .wake, .answer [], .deliver]

/-- The first reply takes as long as the device needs for the next sample. -/
theorem chart_in_device_order_sample :
    (after {} (some 1) 0 0 (samplePolls 1000)).pull.shadow.hist.filterMap Sample.seq = [1, 2] ∧
    (after {} (some 1) 0 0 (samplePolls 1000)).InOrder :=
  ⟨by decide +kernel, chart_in_device_order _ _ _ _ _ (by decide +kernel)⟩

/-- The first reply takes nine seconds: its sample is placed at 10 s, the next one at 2 s. -/
theorem slow_reply_reorders_chart :
    ¬ ∀ lim bootId bootedAt now es, (after lim bootId bootedAt now es).InOrder := by
  intro h
  exact absurd (h {} (some 1) 0 0 (samplePolls 9000)) (by decide +kernel)

end Timeline

end Fountainer
