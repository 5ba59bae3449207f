import Fountainer.App.Chart
import Fountainer.App.History
import Fountainer.Library.Run

/-!
# No double ingest of pressure samples

One device and its pollers, with at most one request under way. A device may report any number as its
`boot_id`, the same one for every boot, or none.
-/

namespace Fountainer

/-- A sample of the sensor: its pressure in bar is a float. -/
abbrev Measured := { x : Reading // x.fits = true }

/-- A reply without `boot_id`. -/
def HistoryReply.bareMessage (r : HistoryReply) : Dict :=
  Dict.update (r.other.filter fun e => e.1 ≠ py "boot_id")
    [(py "now_ms", .int r.nowMs), (py "next_seq", .int r.ring.next),
     (py "first_seq_available", .int r.ring.first), (py "samples", .arr (r.rows.map rowJson))]

/-- A boot of the device; `bootId` is what it reports. -/
structure Boot where
  no : Nat
  bootId : Option Int
  ring : Ring
  reported : ring.boot = bootId.getD 0

/-- `_poll_history` of the sessions, one request at a time. -/
inductive Poll
  | asleep
  | asked (fields : Dict)
  | answered (b : Boot) (fields : Dict) (nowMs : Int) (other : Dict)
  | finished

def Poll.after : Next → Poll
  | .sleep _ => .asleep
  | .call call => .asked call.body
  | .finish => .finished

structure Backfill where
  now : Clock := 0
  shadow : Shadow := {}
  boot : Boot
  poll : Poll := .finished
  /-- The calls of `_hist_add`, with the boot of a device sample. -/
  calls : List (Option Nat × HistCall) := []

inductive BackfillStep
  | tick (ns : Nat)
  /-- The rest of the application leaves the shadow `st`, up to the cursor and the chart. -/
  | app (st : Shadow)
  /-- A live sample. -/
  | live (t : Int) (p r : Json)
  /-- A session is connected. -/
  | connect
  | produce (x : Measured)
  | overwrite
  | reboot (bootId : Option Int)
  | wake
  | answer (nowMs : Int) (other : Dict)
  | deliver
  /-- The request raises. -/
  | fail

namespace Boot

def start (no : Nat) (bootId : Option Int) : Boot :=
  { no, bootId, ring := { boot := bootId.getD 0 }, reported := rfl }

def produce (b : Boot) (x : Measured) : Boot :=
  { b with ring := b.ring.produce x.1, reported := b.reported }

def overwrite (b : Boot) : Boot :=
  { b with ring := b.ring.overwrite, reported := b.ring.overwrite_ring.1.trans b.reported }

def reply (b : Boot) (fields : Dict) (nowMs : Int) (other : Dict) : HistoryReply :=
  { ring := b.ring, fields, nowMs, other }

/-- What the device sends. -/
def message (b : Boot) (fields : Dict) (nowMs : Int) (other : Dict) : Dict :=
  let r := b.reply fields nowMs other
  if b.bootId.isSome then r.message else r.bareMessage

/-- `b'` is `b` some time later, or a later boot. -/
structure Later (b b' : Boot) : Prop where
  no : b.no ≤ b'.no
  boot : b.no = b'.no → b.ring.boot = b'.ring.boot
  next : b.no = b'.no → b.ring.next ≤ b'.ring.next

theorem Later.refl (b : Boot) : Later b b := ⟨Nat.le_refl _, fun _ => rfl, fun _ => Int.le_refl _⟩

theorem later_produce (b : Boot) (x : Measured) : Later b (b.produce x) := by
  refine ⟨Nat.le_refl _, fun _ => rfl, fun _ => ?_⟩
  simp only [produce, Ring.produce, Ring.next, List.length_append, List.length_singleton]
  omega

theorem later_overwrite (b : Boot) : Later b b.overwrite := by
  refine ⟨Nat.le_refl _, fun _ => b.ring.overwrite_ring.1.symm, fun _ => ?_⟩
  simp only [overwrite, Ring.overwrite]
  split
  · exact Int.le_refl _
  · rename_i xs hxs
    simp only [Ring.next, hxs, List.length_cons]
    omega

theorem later_start (b : Boot) (bootId : Option Int) : Later b (start (b.no + 1) bootId) :=
  ⟨Nat.le_succ _, fun he => absurd he (Nat.ne_of_lt (Nat.lt_succ_self _)),
    fun he => absurd he (Nat.ne_of_lt (Nat.lt_succ_self _))⟩

theorem overwrite_fits {b : Boot} (h : ∀ x ∈ b.ring.readings, x.fits = true) :
    ∀ x ∈ b.overwrite.ring.readings, x.fits = true := by
  intro x hx
  simp only [overwrite, Ring.overwrite] at hx
  split at hx
  · exact h x hx
  · rename_i hxs
    exact h x (hxs ▸ List.mem_cons_of_mem _ hx)

end Boot

namespace Backfill

/-- The poller goes on until it suspends. -/
def resume (s : Backfill) (lim : Limits) (stage : HistoryStage) (res : Except PyErr Dict) : Backfill :=
  let o := stage.resume lim s.shadow s.now res
  { s with shadow := o.shadow, poll := .after o.next }

/-- The calls that a reply leads to. -/
def rowCalls (s : Backfill) (r : HistoryReply) : List HistCall :=
  let relay : Json :=
    .int (if (Dict.get (s.shadow.aligned s.now r).dp (py "Fon_Relay_Output")).truthy then 1 else 0)
  (r.kept (s.shadow.cursorFor r.ring.boot r.ring.next)).map (rowCall s.now.ms r.nowMs relay)

def step (lim : Limits) (s : Backfill) : BackfillStep → Backfill
  | .tick ns => { s with now := s.now + ns }
  | .app st =>
      { s with shadow := { st with hist := s.shadow.hist, histI := s.shadow.histI
                                   histBoot := s.shadow.histBoot, histSeq := s.shadow.histSeq } }
  | .live t p r =>
      { s with shadow := s.shadow.add lim ⟨t, p, r, none⟩, calls := s.calls ++ [(none, ⟨t, p, r, none⟩)] }
  | .connect => match s.poll with
      | .asleep | .finished => { s with poll := .asleep }
      | _ => s
  | .produce x => { s with boot := s.boot.produce x }
  | .overwrite => { s with boot := s.boot.overwrite }
  | .reboot bootId => { s with boot := .start (s.boot.no + 1) bootId }
  | .wake => match s.poll with
      | .asleep => s.resume lim .asleep (.ok [])
      | _ => s
  | .answer nowMs other => match s.poll with
      | .asked fields => { s with poll := .answered s.boot fields nowMs other }
      | _ => s
  | .deliver => match s.poll with
      | .answered b fields nowMs other =>
          { s.resume lim .batch (.ok (b.message fields nowMs other)) with
            calls := s.calls ++ (s.rowCalls (b.reply fields nowMs other)).map fun c => (some b.no, c) }
      | _ => s
  | .fail => match s.poll with
      | .asked _ | .answered .. => s.resume lim .batch (.error .timeoutError)
      | _ => s

/-- A new device and a server that has not seen it. -/
def init (bootId : Option Int) : Backfill := { boot := .start 0 bootId }

abbrev after (lim : Limits) (bootId : Option Int) (es : List BackfillStep) : Backfill :=
  Run.run (step lim) (init bootId) es

/-- The device samples that have been inserted, by boot and number. -/
def physical (s : Backfill) : List (Nat × Int) :=
  s.calls.filterMap fun e => match e with
    | (some no, c) => c.seq.map fun q => (no, q)
    | (none, _) => none

/-- An earlier boot, or an earlier sample of the same boot. -/
abbrev Before (a b : Nat × Int) : Prop := a.1 < b.1 ∨ a.1 = b.1 ∧ a.2 < b.2

/-! ## A reply of the device -/

theorem get_filter_ne (d : Dict) (k : Str) : Dict.get (d.filter fun e => e.1 ≠ k) k = .null := by
  have h : (d.filter fun e => e.1 ≠ k).lookup k = none := by
    rw [List.lookup_eq_none_iff]
    intro e he
    have hne : e.1 ≠ k := by simpa using (List.mem_filter.mp he).2
    simpa using hne.symm
  rw [Dict.get, h]
  rfl

/-- The fields that the poller reads; a missing `boot_id` is read as 0. -/
theorem message_fields (b : Boot) (fields : Dict) (nowMs : Int) (other : Dict) :
    let r := b.reply fields nowMs other
    let m := b.message fields nowMs other
    (m.get (py "boot_id")).toIntOr 0 = .ok r.ring.boot ∧ m.get (py "now_ms") = .int r.nowMs ∧
    m.get (py "next_seq") = .int r.ring.next ∧
    m.get (py "first_seq_available") = .int r.ring.first ∧
    m.get (py "samples") = .arr (r.rows.map HistoryReply.rowJson) := by
  intro r m
  have hm : m = if b.bootId.isSome then r.message else r.bareMessage := rfl
  cases hb : b.bootId with
  | some i =>
      rw [hm, if_pos (by rw [hb]; rfl)]
      obtain ⟨hboot, hrest⟩ := r.message_get
      exact ⟨by rw [hboot, toIntOr_int (.inr rfl)], hrest⟩
  | none =>
      have hring : r.ring.boot = 0 := by rw [show r.ring.boot = b.ring.boot from rfl, b.reported, hb]; rfl
      rw [hm, if_neg (by rw [hb]; simp), hring]
      refine ⟨?_, ?_, ?_, ?_, ?_⟩
      · rw [HistoryReply.bareMessage, Dict.get_update (by simp; decide), get_filter_ne]
        rfl
      all_goals exact Dict.get_update_of_mem (by simp; decide) (by simp)

theorem kept_eq_news {r : HistoryReply} (h : ∀ x ∈ r.ring.readings, x.fits = true) (c : Int) :
    r.kept c = r.news c := by
  refine List.takeWhile_eq_self_iff.mpr fun row hrow => ?_
  have hring := (Numbered.mem_behind.mp (List.mem_of_mem_take ((r.news_mem c).mp hrow).1)).1
  have hmem := List.mem_map_of_mem (f := Prod.snd) hring
  rw [Ring.rows, Numbered.consecutive_snd] at hmem
  exact h _ hmem

variable {lim : Limits} {s : Backfill}

/-- A poller that wakes up reads nothing into the shadow. -/
theorem resume_asleep (s : Backfill) (lim : Limits) :
    ∃ p, (∀ b fields nowMs other, p ≠ .answered b fields nowMs other) ∧
      s.resume lim .asleep (.ok []) = { s with poll := p } := by
  unfold resume HistoryStage.resume historyHead
  by_cases h : s.shadow.online
  · by_cases hd : s.shadow.downloading
    · exact ⟨.asleep, by simp, by simp [h, hd, Poll.after]⟩
    · exact ⟨.asked (historyReadCall s.shadow.histSeq).body, by simp, by simp [h, hd, Poll.after]⟩
  · exact ⟨.finished, by simp, by simp [h, Poll.after]⟩

theorem resume_message (s : Backfill) (lim : Limits) {b : Boot}
    (hfits : ∀ x ∈ b.ring.readings, x.fits = true) (fields : Dict) (nowMs : Int) (other : Dict) :
    let r := b.reply fields nowMs other
    let c := s.shadow.cursorFor r.ring.boot r.ring.next
    s.resume lim .batch (.ok (b.message fields nowMs other)) =
      { s with shadow := { s.shadow.ingested lim s.now r with histSeq := r.cursorAfter c }, poll := .asleep } := by
  intro r c
  obtain ⟨hboot, hnow, hnext, hfirst, hsamples⟩ := message_fields b fields nowMs other
  unfold resume HistoryStage.resume historyHead
  rcases historyBatch_fields lim s.shadow s.now r hboot hnow hnext hfirst hsamples with ⟨-, h⟩ | ⟨hk, -⟩
  · simp only [h, Poll.after]
    rfl
  · exact absurd (kept_eq_news hfits _) hk

theorem ingested_hist (s : Backfill) (lim : Limits) (r : HistoryReply) :
    (s.shadow.ingested lim s.now r).hist = (s.shadow.addAll lim (s.rowCalls r)).hist ∧
      (s.shadow.ingested lim s.now r).histI = s.shadow.histI + (s.rowCalls r).length :=
  s.shadow.ingested_chart lim s.now r

/-! ## The invariant -/

/-- No sample of the boot behind the cursor has been inserted. -/
def Ahead (s : Backfill) (b : Boot) : Prop :=
  ∀ p ∈ s.physical, p.1 < b.no ∨ p.1 = b.no ∧ s.shadow.histBoot = some b.ring.boot ∧
    p.2 ≤ s.shadow.histSeq ∧ s.shadow.histSeq < b.ring.next

structure Once (lim : Limits) (s : Backfill) : Prop where
  ahead : s.Ahead s.boot
  fits : ∀ x ∈ s.boot.ring.readings, x.fits = true
  reply : ∀ b fields nowMs other, s.poll = .answered b fields nowMs other →
    s.Ahead b ∧ Boot.Later b s.boot ∧ ∀ x ∈ b.ring.readings, x.fits = true
  sorted : s.physical.Pairwise Before
  chart : s.shadow.hist = (Shadow.addAll lim {} (s.calls.map Prod.snd)).hist ∧
    s.shadow.histI = s.calls.length

theorem Once.init (lim : Limits) (bootId : Option Int) : Once lim (init bootId) where
  ahead := by simp [Ahead, physical, Backfill.init]
  fits := by simp [Backfill.init, Boot.start]
  reply := by simp [Backfill.init]
  sorted := List.Pairwise.nil
  chart := ⟨rfl, rfl⟩

/-- A boot that is later has nothing behind the cursor either. -/
theorem Ahead.later {b b' : Boot} (h : s.Ahead b) (hb : Boot.Later b b') : s.Ahead b' := by
  intro p hp
  rcases h p hp with hlt | ⟨he, hboot, hseq, hnext⟩
  · exact .inl (Nat.lt_of_lt_of_le hlt hb.no)
  · rcases Nat.lt_or_eq_of_le hb.no with hlt | hno
    · exact .inl (he ▸ hlt)
    · exact .inr ⟨he.trans hno, hb.boot hno ▸ hboot, hseq, Int.lt_of_lt_of_le hnext (hb.next hno)⟩

theorem Ahead.congr {s s' : Backfill} {b : Boot} (h : s.Ahead b) (hp : s'.physical = s.physical)
    (hboot : s'.shadow.histBoot = s.shadow.histBoot) (hseq : s'.shadow.histSeq = s.shadow.histSeq) :
    s'.Ahead b := by
  unfold Ahead
  rw [hp, hboot, hseq]
  exact h

/-- Another boot of the device, or the same with other samples. -/
theorem Once.setBoot (h : Once lim s) {b : Boot} (hb : Boot.Later s.boot b)
    (hfits : ∀ x ∈ b.ring.readings, x.fits = true) : Once lim { s with boot := b } where
  ahead := Ahead.later h.ahead hb
  fits := hfits
  reply := by
    intro b₀ fields nowMs other hp
    obtain ⟨ha, hl, hf⟩ := h.reply b₀ fields nowMs other hp
    refine ⟨ha, ⟨Nat.le_trans hl.no hb.no, fun he => ?_, fun he => ?_⟩, hf⟩
    · have hno : b₀.no = s.boot.no := Nat.le_antisymm hl.no (he ▸ hb.no)
      exact (hl.boot hno).trans (hb.boot (hno.symm.trans he))
    · have hno : b₀.no = s.boot.no := Nat.le_antisymm hl.no (he ▸ hb.no)
      exact Int.le_trans (hl.next hno) (hb.next (hno.symm.trans he))
  sorted := h.sorted
  chart := h.chart

theorem Once.idle (h : Once lim s) {now : Clock} {st : Shadow} {p : Poll}
    (hboot : st.histBoot = s.shadow.histBoot) (hseq : st.histSeq = s.shadow.histSeq)
    (hhist : st.hist = s.shadow.hist) (hi : st.histI = s.shadow.histI)
    (hp : ∀ b fields nowMs other, p = .answered b fields nowMs other → p = s.poll) :
    Once lim { s with now, shadow := st, poll := p } where
  ahead := Ahead.congr h.ahead rfl hboot hseq
  fits := h.fits
  reply := by
    intro b fields nowMs other he
    obtain ⟨ha, hrest⟩ := h.reply b fields nowMs other ((hp _ _ _ _ he).symm.trans he)
    exact ⟨Ahead.congr ha rfl hboot hseq, hrest⟩
  sorted := h.sorted
  chart := ⟨hhist.trans h.chart.1, hi.trans h.chart.2⟩

theorem physical_append (s : Backfill) (st : Shadow) (p : Poll) (no : Nat) (calls : List HistCall) :
    ({ s with shadow := st, poll := p, calls := s.calls ++ calls.map fun c => (some no, c) } :
      Backfill).physical = s.physical ++ (calls.filterMap HistCall.seq).map fun q => (no, q) := by
  simp only [physical, List.filterMap_append, List.filterMap_map, List.map_filterMap]
  rfl

theorem rowCalls_seq (s : Backfill) (r : HistoryReply) :
    (s.rowCalls r).filterMap HistCall.seq =
      (r.kept (s.shadow.cursorFor r.ring.boot r.ring.next)).map Prod.fst := by
  rw [rowCalls, List.filterMap_map, ← List.filterMap_eq_map]
  rfl

/-- The numbers of a boot that have been inserted lie up to the cursor with which its next reply is
read. -/
theorem Ahead.cursor {b : Boot} (h : s.Ahead b) :
    s.shadow.cursorFor b.ring.boot b.ring.next < b.ring.next ∧
      ∀ p ∈ s.physical, p.1 < b.no ∨
        p.1 = b.no ∧ p.2 ≤ s.shadow.cursorFor b.ring.boot b.ring.next := by
  have hpos := b.ring.pos
  have hlen : b.ring.first ≤ b.ring.next := Int.le_add_of_nonneg_right (Int.natCast_nonneg _)
  unfold Shadow.cursorFor
  by_cases hc : s.shadow.histBoot = some b.ring.boot ∧ s.shadow.histSeq < b.ring.next
  · rw [if_pos hc]
    refine ⟨hc.2, fun p hp => (h p hp).imp_right fun hb => ⟨hb.1, hb.2.2.1⟩⟩
  · rw [if_neg hc]
    refine ⟨by omega, fun p hp => (h p hp).imp_right fun hb => ?_⟩
    exact absurd ⟨hb.2.1, hb.2.2.2⟩ hc

/-- The state after a reply of boot `b`. -/
def read (s : Backfill) (lim : Limits) (b : Boot) (r : HistoryReply) : Backfill :=
  { s with shadow := { s.shadow.ingested lim s.now r with
                         histSeq := r.cursorAfter (s.shadow.cursorFor r.ring.boot r.ring.next) }
           poll := .asleep
           calls := s.calls ++ (s.rowCalls r).map fun c => (some b.no, c) }

theorem Once.deliver_eq (h : Once lim s) {b : Boot} {fields other : Dict} {nowMs : Int}
    (hpoll : s.poll = .answered b fields nowMs other) :
    s.step lim .deliver = s.read lim b (b.reply fields nowMs other) := by
  have hres := s.resume_message lim (h.reply b fields nowMs other hpoll).2.2 fields nowMs other
  simp only [step, hpoll]
  rw [hres]
  rfl

theorem read_physical (s : Backfill) (lim : Limits) (b : Boot) {r : HistoryReply}
    (hfits : ∀ x ∈ r.ring.readings, x.fits = true) :
    (s.read lim b r).physical = s.physical ++
      (r.news (s.shadow.cursorFor r.ring.boot r.ring.next)).map fun row => (b.no, row.1) := by
  rw [read, physical_append, rowCalls_seq, kept_eq_news hfits, List.map_map]
  rfl

theorem cursorAfter_lt {r : HistoryReply} {c : Int} (hc : c < r.ring.next) :
    r.cursorAfter c < r.ring.next := by
  unfold HistoryReply.cursorAfter
  rcases Numbered.last_cases c (r.news c) with ⟨-, he⟩ | ⟨row, hrow, he⟩
  · rw [he]
    exact hc
  · rw [← he]
    exact (r.rows_bounds ((r.news_mem c).mp hrow).1).2

/-- After a reply of boot `b` everything of this boot that has been inserted lies up to the cursor. -/
theorem Ahead.read {b : Boot} (h : s.Ahead b) {r : HistoryReply} (hr : r.ring = b.ring)
    (hfits : ∀ x ∈ r.ring.readings, x.fits = true) : (s.read lim b r).Ahead b := by
  obtain ⟨hcur, hold⟩ := h.cursor
  rw [← hr] at hcur hold
  have hboot : (s.read lim b r).shadow.histBoot = some b.ring.boot := by
    rw [← hr]
    exact Shadow.ingested_histBoot lim s.shadow s.now r
  intro p hp
  rw [read_physical s lim b hfits] at hp
  rcases List.mem_append.mp hp with hp | hp
  · refine (hold p hp).imp_right fun hb => ⟨hb.1, hboot, ?_, hr ▸ cursorAfter_lt hcur⟩
    exact Int.le_trans hb.2 (r.le_cursorAfter _)
  · obtain ⟨row, hrow, rfl⟩ := List.mem_map.mp hp
    exact .inr ⟨rfl, hboot, r.le_cursorAfter_of_mem _ hrow, hr ▸ cursorAfter_lt hcur⟩

theorem Once.read (h : Once lim s) {b : Boot} (hahead : s.Ahead b) (hlater : b.Later s.boot)
    {r : HistoryReply} (hr : r.ring = b.ring) (hfits : ∀ x ∈ r.ring.readings, x.fits = true) :
    Once lim (s.read lim b r) where
  ahead := (hahead.read hr hfits).later hlater
  fits := h.fits
  reply := fun _ _ _ _ he => Poll.noConfusion he
  sorted := by
    obtain ⟨-, hold⟩ := hahead.cursor
    rw [← hr] at hold
    rw [read_physical s lim b hfits]
    refine List.pairwise_append.mpr ⟨h.sorted, ?_, fun p hp q hq => ?_⟩
    · exact List.pairwise_map.mpr ((r.rows_sorted.filter_behind _).imp fun hlt => .inr ⟨rfl, hlt⟩)
    · obtain ⟨row, hrow, rfl⟩ := List.mem_map.mp hq
      refine (hold p hp).imp_right fun hb => ⟨hb.1, ?_⟩
      exact Int.lt_of_le_of_lt hb.2 ((r.news_mem _).mp hrow).2
  chart := by
    obtain ⟨hhist, hi⟩ := s.ingested_hist lim r
    have hcalls : (s.read lim b r).calls.map Prod.snd = s.calls.map Prod.snd ++ s.rowCalls r := by
      simp [Backfill.read]
    constructor
    · rw [hcalls, addAll_append]
      exact hhist.trans (addAll_congr lim h.chart.1
        (by rw [addAll_histI, h.chart.2, List.length_map]; exact (Nat.zero_add _).symm) _)
    · refine hi.trans ?_
      rw [h.chart.2, Backfill.read, List.length_append, List.length_map]

theorem Once.live (h : Once lim s) (t : Int) (p r : Json) : Once lim (s.step lim (.live t p r)) where
  ahead := Ahead.congr h.ahead (by simp [step, physical]) rfl rfl
  fits := h.fits
  reply := by
    intro b fields nowMs other he
    obtain ⟨ha, hrest⟩ := h.reply b fields nowMs other he
    exact ⟨Ahead.congr ha (by simp [step, physical]) rfl rfl, hrest⟩
  sorted := by
    have hphys : (s.step lim (.live t p r)).physical = s.physical := by simp [step, physical]
    rw [hphys]
    exact h.sorted
  chart := by
    have hcalls : (s.step lim (.live t p r)).calls.map Prod.snd =
        s.calls.map Prod.snd ++ [⟨t, p, r, none⟩] := by simp [step]
    constructor
    · rw [hcalls, addAll_append]
      exact addAll_congr lim h.chart.1
        (by rw [addAll_histI, h.chart.2, List.length_map]; exact (Nat.zero_add _).symm) [⟨t, p, r, none⟩]
    · simp [step, h.chart.2]

theorem Once.step (h : Once lim s) (e : BackfillStep) : Once lim (s.step lim e) := by
  cases e with
  | tick ns => exact h.idle rfl rfl rfl rfl fun _ _ _ _ _ => rfl
  | app st => exact h.idle rfl rfl rfl rfl fun _ _ _ _ _ => rfl
  | live t p r => exact h.live t p r
  | connect =>
      simp only [Backfill.step]
      split
      · exact h.idle rfl rfl rfl rfl fun _ _ _ _ he => Poll.noConfusion he
      · exact h.idle rfl rfl rfl rfl fun _ _ _ _ he => Poll.noConfusion he
      · exact h
  | produce x =>
      refine h.setBoot (s.boot.later_produce x) fun y hy => ?_
      rcases List.mem_append.mp hy with hy | hy
      · exact h.fits y hy
      · exact List.mem_singleton.mp hy ▸ x.2
  | overwrite => exact h.setBoot s.boot.later_overwrite (Boot.overwrite_fits h.fits)
  | reboot bootId => exact h.setBoot (s.boot.later_start bootId) (by simp [Boot.start])
  | wake =>
      simp only [Backfill.step]
      split
      · obtain ⟨p, hp, he⟩ := s.resume_asleep lim
        rw [he]
        exact h.idle rfl rfl rfl rfl fun b fields nowMs other he => absurd he (hp b fields nowMs other)
      · exact h
  | answer nowMs other =>
      simp only [Backfill.step]
      split
      · refine ⟨Ahead.congr h.ahead rfl rfl rfl, h.fits, fun b fields nowMs other he => ?_, h.sorted, h.chart⟩
        cases he
        exact ⟨Ahead.congr h.ahead rfl rfl rfl, .refl s.boot, h.fits⟩
      · exact h
  | deliver =>
      cases hp : s.poll with
      | answered b fields nowMs other =>
          obtain ⟨hahead, hlater, hfits⟩ := h.reply b fields nowMs other hp
          rw [h.deliver_eq hp]
          exact h.read hahead hlater rfl hfits
      | asleep | asked fields | finished =>
          simp only [Backfill.step, hp]
          exact h
  | fail =>
      simp only [Backfill.step]
      split
      · exact h.idle rfl rfl rfl rfl fun _ _ _ _ he => Poll.noConfusion he
      · exact h.idle rfl rfl rfl rfl fun _ _ _ _ he => Poll.noConfusion he
      · exact h

/-! ## Runs -/

theorem once (lim : Limits) (bootId : Option Int) (es : List BackfillStep) :
    Once lim (after lim bootId es) := by
  have halong : Run.Along (Backfill.step lim) (fun _ _ => True) (init bootId) es :=
    Run.along_of_forall (fun _ _ => trivial) _ _
  exact Run.invariant (fun _ e h _ => h.step e) halong (.init lim bootId)

/-- The chart is made of the calls of `_hist_add`; among them every sample of a boot occurs at most
once, and those of one boot in ascending order. A reading is `Measured`: one whose `mbar / 1000.0` exceeds the
range of a double, on which `_poll_history` raises, is left out. -/
theorem no_double_ingest (lim : Limits) (bootId : Option Int) (es : List BackfillStep) :
    (after lim bootId es).shadow.hist =
      (Shadow.addAll lim {} ((after lim bootId es).calls.map Prod.snd)).hist ∧
    (after lim bootId es).physical.Nodup ∧
    ∀ no, (((after lim bootId es).physical.filter fun p => p.1 == no).map Prod.snd).Pairwise (· < ·) := by
  have h := once lim bootId es
  refine ⟨h.chart.1, h.sorted.imp fun {a b} hab he => ?_, fun no => ?_⟩
  · cases he
    exact hab.elim (Nat.lt_irrefl _) fun hq => Int.lt_irrefl _ hq.2
  · refine List.pairwise_map.mpr ((h.sorted.filter _).imp_of_mem fun {a b} ha hb hab => ?_)
    have ha : a.1 = no := by simpa using (List.mem_filter.mp ha).2
    have hb : b.1 = no := by simpa using (List.mem_filter.mp hb).2
    exact hab.elim (fun hlt => absurd (ha.trans hb.symm) (Nat.ne_of_lt hlt)) And.right

/-- An undetected reboot of a device without `boot_id`, an idle poll and a reconnect. -/
example :
    let x : Measured := ⟨⟨1000, 2401, 1⟩, by decide +kernel⟩
    let poll : List BackfillStep := [.wake, .answer 5000 [], .deliver]
    (after {} none ([.connect, .app { online := true }] ++ List.replicate 2 (.produce x) ++ poll ++ poll
      ++ [.reboot none] ++ List.replicate 4 (.produce x) ++ [.connect] ++ poll)).physical =
        [(0, 1), (0, 2), (1, 3), (1, 4)] := by decide +kernel

end Backfill

end Fountainer
