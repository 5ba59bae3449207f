import Fountainer.App.Chart
import Fountainer.App.Tasks
import Fountainer.Library.Numbered
import Fountainer.Python.Keyed
import Fountainer.Python.Lemmas.Dict

/-!
# A `history_batch` of a device

The pressure ring of a device, its reply to `history_read` as in `_handle_history_read` of the
simulator, and what `_poll_history` does with such a reply.
-/

namespace Fountainer

/-- A sample of the ring without its number. -/
structure Reading where
  tsMs : Int
  mbar : Int
  status : Int
  deriving DecidableEq

/-- `mbar / 1000.0` does not overflow. -/
def Reading.fits (x : Reading) : Bool := (PyFloat.divLit x.mbar 1000).isOk

theorem Ring.pos_start : (1 : Int) ≤ 1 := Int.le_refl 1

/-- The samples `first`, `first + 1`, … of a boot. -/
structure Ring where
  boot : Int
  first : Int := 1
  readings : List Reading := []
  pos : 1 ≤ first := by first | exact Ring.pos_start | decide
  deriving DecidableEq

namespace Ring

def next (r : Ring) : Int := r.first + r.readings.length

def rows (r : Ring) : List (Int × Reading) := Numbered.consecutive r.first r.readings

def produce (r : Ring) (x : Reading) : Ring := { r with readings := r.readings ++ [x] }

/-- The oldest sample is overwritten. -/
def overwrite (r : Ring) : Ring :=
  match r.readings with
  | [] => r
  | _ :: xs => { r with first := r.first + 1, readings := xs, pos := Int.le_add_one r.pos }

end Ring

/-- A reply to `history_read`: the ring when it was built and the fields of the request. -/
structure HistoryReply where
  ring : Ring
  fields : Dict
  nowMs : Int
  /-- The fields that `_poll_history` does not read. -/
  other : Dict := []

namespace HistoryReply

/-- `int(msg.get(key) or d)`. -/
def asked (r : HistoryReply) (key : Str) (d : Int) : Int :=
  match (r.fields.get key).toIntOr d with
  | .ok i => i
  | .error _ => d

def since (r : HistoryReply) : Int := r.asked (py "since_seq") 0

def limit (r : HistoryReply) : Nat := (r.asked (py "max_samples") 100).toNat

def rows (r : HistoryReply) : List (Int × Reading) :=
  (Numbered.behind r.since r.ring.rows).take r.limit

def rowJson (row : Int × Reading) : Json :=
  .arr [.int row.1, .int row.2.tsMs, .int row.2.mbar, .int row.2.status]

def message (r : HistoryReply) : Dict :=
  Dict.update r.other
    [(py "boot_id", .int r.ring.boot), (py "now_ms", .int r.nowMs),
     (py "next_seq", .int r.ring.next), (py "first_seq_available", .int r.ring.first),
     (py "samples", .arr (r.rows.map rowJson))]

/-- The samples behind the cursor `c`. -/
def news (r : HistoryReply) (c : Int) : List (Int × Reading) := Numbered.behind c r.rows

/-- The samples that reach `_hist_add`: an integer that no float holds ends the loop. -/
def kept (r : HistoryReply) (c : Int) : List (Int × Reading) :=
  (r.news c).takeWhile fun row => row.2.fits

/-- The number of the last of these samples. -/
def cursorAfter (r : HistoryReply) (c : Int) : Int := Numbered.last c (r.news c)

end HistoryReply

/-- The cursor that the stored one amounts to for a boot whose next sample is `next`. -/
def Shadow.cursorFor (st : Shadow) (boot next : Int) : Int :=
  if st.histBoot = some boot ∧ st.histSeq < next then st.histSeq else 0

/-- The samples that are reported as overwritten. -/
def gapAfter (c first : Int) : Option (Int × Int) :=
  if c ≠ 0 ∧ c + 1 < first then some (c + 1, first - 1) else none

/-- The text of the event that reports them. -/
def gapText (lo hi : Int) : Str :=
  py "pressure history: gap seq " ++ decimal lo ++ py ".." ++ decimal hi ++ py " (ring overwrote)"

/-- `_hist_add` of a sample of the ring. -/
def Shadow.addReading (lim : Limits) (wallNow devNow : Int) (relay : Json) (st : Shadow)
    (row : Int × Reading) : Shadow :=
  st.histAdd lim (wallNow - max 0 (devNow - row.2.tsMs)) (bar row.2.mbar) relay (some row.1)
where
  bar (mbar : Int) : Json :=
    match PyFloat.divLit mbar 1000 with
    | .ok f => .float f.round3
    | .error _ => .null

/-- The call of `_hist_add` for a row. -/
def rowCall (wallNow devNow : Int) (relay : Json) (row : Int × Reading) : HistCall :=
  ⟨wallNow - max 0 (devNow - row.2.tsMs), Shadow.addReading.bar row.2.mbar, relay, some row.1⟩

/-! ## The samples of a reply -/

theorem Ring.overwrite_ring (r : Ring) : r.overwrite.boot = r.boot ∧ r.first ≤ r.overwrite.first := by
  unfold overwrite
  split
  · exact ⟨rfl, Int.le_refl _⟩
  · exact ⟨rfl, Int.le_add_one (Int.le_refl _)⟩

namespace HistoryReply

variable (r : HistoryReply) (c : Int)

theorem ring_sorted : Numbered.Sorted (Numbered.behind r.since r.ring.rows) :=
  (Numbered.consecutive_sorted _ _).filter_behind _

theorem rows_sorted : Numbered.Sorted r.rows := Numbered.window_sorted ..

theorem rows_bounds {p : Int × Reading} (h : p ∈ r.rows) :
    max r.ring.first (r.since + 1) ≤ p.1 ∧ p.1 < r.ring.next := Numbered.window_bounds h

/-- A reply leaves out no sample between the request and its last row. -/
theorem rows_consecutive {p : Int × Reading} (hp : p ∈ r.rows) {q : Int} (hf : r.ring.first ≤ q)
    (hs : r.since < q) (hle : q ≤ p.1) : q ∈ r.rows.map Prod.fst :=
  Numbered.window_consecutive hp hf hs hle

theorem news_mem {p : Int × Reading} : p ∈ r.news c ↔ p ∈ r.rows ∧ c < p.1 := Numbered.mem_behind

theorem cursorAfter_of_none (h : r.ring.next ≤ max r.ring.first (r.since + 1)) :
    r.cursorAfter c = c := by
  rcases Numbered.last_cases c (r.news c) with ⟨-, he⟩ | ⟨p, hp, -⟩
  · exact he
  · have hb := r.rows_bounds ((r.news_mem c).mp hp).1
    omega

theorem le_cursorAfter : c ≤ r.cursorAfter c := Numbered.le_last_behind c r.rows

theorem le_cursorAfter_of_mem {p : Int × Reading} (hp : p ∈ r.news c) : p.1 ≤ r.cursorAfter c :=
  (r.rows_sorted.filter_behind c).le_last hp c

/-- The oldest sample that the request asks for is in the reply. -/
theorem first_row (h : max r.ring.first (r.since + 1) < r.ring.next) (hlim : 0 < r.limit) :
    max r.ring.first (r.since + 1) ∈ r.rows.map Prod.fst := by
  have hmem : max r.ring.first (r.since + 1) ∈ r.ring.rows.map Prod.fst :=
    Numbered.mem_consecutive.mpr ⟨le_max_left .., h⟩
  obtain ⟨row, hrow, he⟩ := List.mem_map.mp hmem
  have hasked : row ∈ Numbered.behind r.since r.ring.rows :=
    Numbered.mem_behind.mpr ⟨hrow, by omega⟩
  have hpos : 0 < r.rows.length := by
    rw [rows, List.length_take]
    exact Nat.lt_min.mpr ⟨hlim, List.length_pos_of_mem hasked⟩
  have hb := (r.rows_bounds (List.getElem_mem hpos)).1
  rw [← he] at hb ⊢
  exact List.mem_map_of_mem (r.ring_sorted.mem_take (List.getElem_mem hpos) hasked hb)

/-- When the request asked for nothing behind the cursor, every sample of the ring between the cursor
and the next one is news. -/
theorem news_consecutive
    (h : r.ring.next ≤ max r.ring.first (r.since + 1) ∨ r.since < max r.ring.first (c + 1))
    {q : Int} (hf : r.ring.first ≤ q) (hc : c < q) (hle : q ≤ r.cursorAfter c) :
    q ∈ (r.news c).map Prod.fst := by
  rcases Numbered.last_cases c (r.news c) with ⟨-, he⟩ | ⟨p, hp, he⟩
  · unfold cursorAfter at hle
    omega
  · obtain ⟨hp, -⟩ := (r.news_mem c).mp hp
    have hb := r.rows_bounds hp
    have hs : r.since < q := by omega
    obtain ⟨row, hrow, rfl⟩ := List.mem_map.mp (r.rows_consecutive hp hf hs (he ▸ hle))
    exact List.mem_map_of_mem ((r.news_mem c).mpr ⟨hrow, hc⟩)

end HistoryReply

/-! ## The reply as a dictionary -/

theorem toIntOr_int {i d : Int} (h : i ≠ 0 ∨ d = 0) : (Json.int i).toIntOr d = .ok i := by
  by_cases hi : i = 0
  · rcases h with h | h
    · exact absurd hi h
    · subst hi h
      rfl
  · simp [Json.toIntOr, Json.or, Json.truthy, hi, Json.toInt]

theorem or_arr (xs : List Json) : (Json.arr xs).or (.arr []) = .arr xs := by
  cases xs with
  | nil => rfl
  | cons x xs => rfl

theorem parseRow_rowJson (row : Int × Reading) :
    parseRow (HistoryReply.rowJson row) = .ok (row.1, row.2.tsMs, row.2.mbar) := rfl

namespace HistoryReply

variable (r : HistoryReply)

theorem message_get :
    r.message.get (py "boot_id") = .int r.ring.boot ∧
    r.message.get (py "now_ms") = .int r.nowMs ∧
    r.message.get (py "next_seq") = .int r.ring.next ∧
    r.message.get (py "first_seq_available") = .int r.ring.first ∧
    r.message.get (py "samples") = .arr (r.rows.map rowJson) := by
  refine ⟨?_, ?_, ?_, ?_, ?_⟩ <;> exact Dict.get_update_of_mem (by simp; decide) (by simp)

end HistoryReply

/-! ## `_poll_history` on the reply -/

section

variable (lim : Limits) (wallNow devNow : Int) (relay : Json)

theorem addReading_ok (st : Shadow) {q : Int} {x : Reading} {f : PyFloat}
    (h : PyFloat.divLit x.mbar 1000 = .ok f) :
    st.histAdd lim (wallNow - max 0 (devNow - x.tsMs)) (.float f.round3) relay (some q) =
      st.addReading lim wallNow devNow relay (q, x) := by
  simp only [Shadow.addReading, Shadow.addReading.bar, h]

/-- Sorted rows: those behind the cursor are added, up to one whose value no float holds. -/
theorem ingest_rows {xs : List (Int × Reading)} (h : Numbered.Sorted xs) (st : Shadow) (c : Int) :
    let news := Numbered.behind c xs
    let kept := news.takeWhile fun row => row.2.fits
    let res := ingest lim wallNow devNow relay st c (xs.map HistoryReply.rowJson)
    res.1 = kept.foldl (Shadow.addReading lim wallNow devNow relay) st ∧
      ((kept = news ∧ res.2 = (Numbered.last c news, none)) ∨
        kept ≠ news ∧ ∃ e, res.2.2 = some e) := by
  induction xs generalizing st c with
  | nil => exact ⟨rfl, .inl ⟨rfl, rfl⟩⟩
  | cons row xs ih =>
      obtain ⟨q, x⟩ := row
      have ih := ih (List.pairwise_cons.mp h).2
      simp only [List.map_cons, ingest, parseRow_rowJson]
      by_cases hc : q ≤ c
      · rw [if_pos hc, Numbered.behind_cons_of_le (x := (q, x)) hc]
        exact ih st c
      · obtain ⟨hall, hq⟩ := h.behind_cons (Int.not_le.mp hc)
        rw [if_neg hc, hall]
        cases hd : PyFloat.divLit x.mbar 1000 with
        | error e =>
            have hx : x.fits = false := by simp only [Reading.fits, hd]; rfl
            simp only [List.takeWhile_cons, hx, Bool.false_eq_true, if_false]
            exact ⟨rfl, .inr ⟨(List.cons_ne_nil _ _).symm, e, rfl⟩⟩
        | ok f =>
            have hx : x.fits = true := by simp only [Reading.fits, hd]; rfl
            have hadd := addReading_ok lim wallNow devNow relay st (q := q) hd
            have ih := ih (st.addReading lim wallNow devNow relay (q, x)) q
            rw [hq] at ih
            simp only [List.takeWhile_cons, hx, if_true, hadd, List.foldl_cons]
            refine ⟨ih.1, ih.2.imp (fun hk => ⟨by rw [hk.1], hk.2⟩) (fun hk => ⟨?_, hk.2⟩)⟩
            exact fun he => hk.1 (List.cons.inj he).2

end

theorem Shadow.resetCursor_eq (st : Shadow) (boot next : Int) :
    st.resetCursor boot next =
      { st with histBoot := some boot, histSeq := st.cursorFor boot next } := by
  unfold resetCursor cursorFor
  by_cases hb : st.histBoot = some boot
  · by_cases hn : next ≤ st.histSeq
    · rw [if_pos (.inr hn), if_neg (fun h => Int.not_lt.mpr hn h.2)]
    · rw [if_neg (fun h => h.elim (fun h => h hb) hn), if_pos ⟨hb, Int.not_le.mp hn⟩, ← hb]
  · rw [if_pos (.inl hb), if_neg (fun h => hb h.1)]

theorem Shadow.reportGap_eq (st : Shadow) (now : Clock) (first : Int) :
    st.reportGap now first =
      match gapAfter st.histSeq first with
      | some (lo, hi) => st.event now (gapText lo hi) .warn
      | none => st := by
  unfold reportGap gapAfter
  split <;> rfl

theorem Shadow.reportGap_cursor (st : Shadow) (now : Clock) (first : Int) :
    (st.reportGap now first).histSeq = st.histSeq ∧
      (st.reportGap now first).histBoot = st.histBoot := by
  unfold reportGap
  split <;> exact ⟨rfl, rfl⟩

theorem Shadow.reportGap_chart (st : Shadow) (now : Clock) (first : Int) :
    (st.reportGap now first).hist = st.hist ∧ (st.reportGap now first).histI = st.histI := by
  unfold reportGap
  split <;> exact ⟨rfl, rfl⟩

/-- The shadow before the samples of a reply: the cursor for its boot and the gap event. -/
def Shadow.aligned (st : Shadow) (now : Clock) (r : HistoryReply) : Shadow :=
  { st with histBoot := some r.ring.boot, histSeq := st.cursorFor r.ring.boot r.ring.next }.reportGap
    now r.ring.first

theorem Shadow.aligned_histSeq (st : Shadow) (now : Clock) (r : HistoryReply) :
    (st.aligned now r).histSeq = st.cursorFor r.ring.boot r.ring.next :=
  (Shadow.reportGap_cursor ..).1

theorem Shadow.aligned_histBoot (st : Shadow) (now : Clock) (r : HistoryReply) :
    (st.aligned now r).histBoot = some r.ring.boot :=
  (Shadow.reportGap_cursor ..).2

/-- With the samples of the reply. -/
def Shadow.ingested (lim : Limits) (st : Shadow) (now : Clock) (r : HistoryReply) : Shadow :=
  let relay : Json :=
    .int (if (Dict.get (st.aligned now r).dp (py "Fon_Relay_Output")).truthy then 1 else 0)
  (r.kept (st.cursorFor r.ring.boot r.ring.next)).foldl
    (Shadow.addReading lim now.ms r.nowMs relay) (st.aligned now r)

theorem foldl_addReading_cursor (lim : Limits) (wallNow devNow : Int) (relay : Json)
    (xs : List (Int × Reading)) (st : Shadow) :
    (xs.foldl (Shadow.addReading lim wallNow devNow relay) st).histSeq = st.histSeq ∧
      (xs.foldl (Shadow.addReading lim wallNow devNow relay) st).histBoot = st.histBoot := by
  induction xs generalizing st with
  | nil => exact ⟨rfl, rfl⟩
  | cons x xs ih => exact ih _

theorem Shadow.ingested_histSeq (lim : Limits) (st : Shadow) (now : Clock) (r : HistoryReply) :
    (st.ingested lim now r).histSeq = st.cursorFor r.ring.boot r.ring.next :=
  (foldl_addReading_cursor ..).1.trans (st.aligned_histSeq now r)

theorem Shadow.ingested_histBoot (lim : Limits) (st : Shadow) (now : Clock) (r : HistoryReply) :
    (st.ingested lim now r).histBoot = some r.ring.boot :=
  (foldl_addReading_cursor ..).2.trans (st.aligned_histBoot now r)

/-- What `_poll_history` does with a message that has the fields of the reply. -/
theorem historyBatch_fields (lim : Limits) (st : Shadow) (now : Clock) (r : HistoryReply) {res : Dict}
    (hboot : (res.get (py "boot_id")).toIntOr 0 = .ok r.ring.boot)
    (hnow : res.get (py "now_ms") = .int r.nowMs) (hnext : res.get (py "next_seq") = .int r.ring.next)
    (hfirst : res.get (py "first_seq_available") = .int r.ring.first)
    (hsamples : res.get (py "samples") = .arr (r.rows.map HistoryReply.rowJson)) :
    let c := st.cursorFor r.ring.boot r.ring.next
    (r.kept c = r.news c ∧ historyBatch lim st now res =
        ({ st.ingested lim now r with histSeq := r.cursorAfter c }, none)) ∨
      r.kept c ≠ r.news c ∧ ∃ e, historyBatch lim st now res = (st.ingested lim now r, some e) := by
  have hpos := r.ring.pos
  have hlen : r.ring.first ≤ r.ring.next := Int.le_add_of_nonneg_right (Int.natCast_nonneg _)
  have hn : (Json.int r.ring.next).toIntOr 1 = .ok r.ring.next := toIntOr_int (.inl (by omega))
  have hf : (Json.int r.ring.first).toIntOr 1 = .ok r.ring.first := toIntOr_int (.inl (by omega))
  have hst : (st.resetCursor r.ring.boot r.ring.next).reportGap now r.ring.first = st.aligned now r := by
    rw [Shadow.resetCursor_eq, Shadow.aligned]
  have hi := ingest_rows lim now.ms r.nowMs
    (.int (if (Dict.get (st.aligned now r).dp (py "Fon_Relay_Output")).truthy then 1 else 0))
    r.rows_sorted (st.aligned now r) (st.cursorFor r.ring.boot r.ring.next)
  simp only [historyBatch, hboot, hnow, hnext, hfirst, hsamples, or_arr, Json.iter,
    toIntOr_int (.inr rfl), hn, hf, hst, Shadow.aligned_histSeq]
  generalize ingest lim now.ms r.nowMs _ _ _ _ = out at hi ⊢
  obtain ⟨st', q, err⟩ := out
  obtain ⟨h1, ⟨hk, h2⟩ | ⟨hk, e, h2⟩⟩ := hi
  · cases h1
    cases h2
    exact .inl ⟨hk, rfl⟩
  · cases h1
    cases h2
    exact .inr ⟨hk, e, rfl⟩

/-- What `_poll_history` does with a reply: the cursor moves when all new samples are added. -/
theorem historyBatch_message (lim : Limits) (st : Shadow) (now : Clock) (r : HistoryReply) :
    let c := st.cursorFor r.ring.boot r.ring.next
    (r.kept c = r.news c ∧ historyBatch lim st now r.message =
        ({ st.ingested lim now r with histSeq := r.cursorAfter c }, none)) ∨
      r.kept c ≠ r.news c ∧ ∃ e, historyBatch lim st now r.message = (st.ingested lim now r, some e) := by
  obtain ⟨hboot, hnow, hnext, hfirst, hsamples⟩ := r.message_get
  exact historyBatch_fields lim st now r (by rw [hboot, toIntOr_int (.inr rfl)]) hnow hnext hfirst
    hsamples

/-! ## What a reply adds to the chart and to the events -/

/-- The calls of `_hist_add` that the reply leads to. -/
def HistoryReply.calls (r : HistoryReply) (st : Shadow) (now : Clock) : List HistCall :=
  let relay : Json :=
    .int (if (Dict.get (st.aligned now r).dp (py "Fon_Relay_Output")).truthy then 1 else 0)
  (r.kept (st.cursorFor r.ring.boot r.ring.next)).map (rowCall now.ms r.nowMs relay)

/-- The event with which the gap is reported. -/
def HistoryReply.gapEvent (r : HistoryReply) (st : Shadow) (now : Clock) : Option Event :=
  (gapAfter (st.cursorFor r.ring.boot r.ring.next) r.ring.first).map fun g =>
    ⟨now, gapText g.1 g.2, .warn⟩

theorem Shadow.aligned_chart (st : Shadow) (now : Clock) (r : HistoryReply) :
    (st.aligned now r).hist = st.hist ∧ (st.aligned now r).histI = st.histI :=
  Shadow.reportGap_chart ..

theorem Shadow.aligned_dp (st : Shadow) (now : Clock) (r : HistoryReply) :
    (st.aligned now r).dp = st.dp := by
  unfold aligned reportGap
  split <;> rfl

theorem Shadow.aligned_events (st : Shadow) (now : Clock) (r : HistoryReply) :
    (st.aligned now r).events =
      (r.gapEvent st now).elim st.events fun e => keepLast 40 (st.events ++ [e]) := by
  rw [aligned, reportGap_eq, HistoryReply.gapEvent]
  cases gapAfter (st.cursorFor r.ring.boot r.ring.next) r.ring.first <;> rfl

theorem Shadow.ingested_eq (lim : Limits) (st : Shadow) (now : Clock) (r : HistoryReply) :
    st.ingested lim now r = (st.aligned now r).addAll lim (r.calls st now) := by
  rw [ingested, addAll, HistoryReply.calls, List.foldl_map]
  rfl

theorem Shadow.ingested_chart (lim : Limits) (st : Shadow) (now : Clock) (r : HistoryReply) :
    (st.ingested lim now r).hist = (st.addAll lim (r.calls st now)).hist ∧
      (st.ingested lim now r).histI = st.histI + (r.calls st now).length := by
  obtain ⟨hhist, hi⟩ := st.aligned_chart now r
  rw [ingested_eq, addAll_histI, hi]
  exact ⟨addAll_congr lim hhist hi _, rfl⟩

theorem Shadow.ingested_events (lim : Limits) (st : Shadow) (now : Clock) (r : HistoryReply) :
    (st.ingested lim now r).events =
      (r.gapEvent st now).elim st.events fun e => keepLast 40 (st.events ++ [e]) := by
  rw [ingested_eq, addAll_eq, aligned_events]

/-- At the shadow `st`, whatever its chart and its events are, `f` makes the calls of `_hist_add` and
reports the event. -/
structure Shadow.Adds (f : Limits → Shadow → Shadow) (st : Shadow) (calls : List HistCall)
    (e : Option Event) : Prop where
  hist : ∀ lim hist events, (f lim { st with hist, events }).hist =
    (Shadow.addAll lim { st with hist, events } calls).hist
  histI : ∀ lim hist events, (f lim { st with hist, events }).histI = st.histI + calls.length
  events : ∀ lim hist events, (f lim { st with hist, events }).events =
    e.elim events fun e => keepLast 40 (events ++ [e])

theorem Shadow.adds_histAdd (st : Shadow) (c : HistCall) :
    Shadow.Adds (fun lim st => st.add lim c) st [c] none :=
  ⟨fun _ _ _ => rfl, fun _ _ _ => rfl, fun _ _ _ => rfl⟩

theorem Shadow.adds_event (st : Shadow) (e : Event) :
    Shadow.Adds (fun _ st => st.event e.t e.text e.level) st [] (some e) :=
  ⟨fun _ _ _ => rfl, fun _ _ _ => rfl, fun _ _ _ => rfl⟩

/-- A reply that is read, also when its loop ends early. -/
theorem Shadow.adds_historyBatch (st : Shadow) (now : Clock) (r : HistoryReply) :
    Shadow.Adds (fun lim st => (historyBatch lim st now r.message).1) st (r.calls st now)
      (r.gapEvent st now) := by
  have hbatch : ∀ lim hist events,
      let st' := { st with hist, events }
      (historyBatch lim st' now r.message).1.hist = (st'.ingested lim now r).hist ∧
        (historyBatch lim st' now r.message).1.histI = (st'.ingested lim now r).histI ∧
        (historyBatch lim st' now r.message).1.events = (st'.ingested lim now r).events := by
    intro lim hist events st'
    rcases historyBatch_message lim st' now r with ⟨-, h⟩ | ⟨-, e, h⟩
    · rw [h]
      exact ⟨rfl, rfl, rfl⟩
    · rw [h]
      exact ⟨rfl, rfl, rfl⟩
  have hcalls : ∀ hist events, r.calls { st with hist, events } now = r.calls st now := by
    intro hist events
    rw [HistoryReply.calls, HistoryReply.calls, aligned_dp, aligned_dp]
    rfl
  constructor
  · intro lim hist events
    rw [(hbatch lim hist events).1, (Shadow.ingested_chart ..).1, hcalls]
  · intro lim hist events
    rw [(hbatch lim hist events).2.1, (Shadow.ingested_chart ..).2, hcalls]
  · intro lim hist events
    rw [(hbatch lim hist events).2.2, Shadow.ingested_events]
    rfl

/-! ## The gap text -/

theorem takeWhile_decimal (i : Int) (s : Str) :
    (decimal i ++ .scalar '.' :: s).takeWhile (fun c => c != .scalar '.') = decimal i := by
  have hdot : ∀ c ∈ decimal i, (c != PyChar.scalar '.') = true := by
    intro c hc
    refine bne_iff_ne.mpr fun he => ?_
    rcases mem_decimal (he ▸ hc) with h | h
    · exact absurd h (by decide)
    · exact absurd h (by decide)
  rw [List.takeWhile_append_of_pos hdot, List.takeWhile_cons_of_neg (by simp), List.append_nil]

theorem gapText_inj {lo hi lo' hi' : Int} (h : gapText lo hi = gapText lo' hi') : lo = lo' ∧ hi = hi' := by
  unfold gapText at h
  simp only [List.append_assoc] at h
  have h := List.append_cancel_left h
  have hlo : decimal lo = decimal lo' := by
    have hcut := congrArg (List.takeWhile fun c => c != PyChar.scalar '.') h
    rwa [show py ".." = .scalar '.' :: py "." from rfl, List.cons_append, List.cons_append,
      takeWhile_decimal, takeWhile_decimal] at hcut
  rw [hlo] at h
  have h := List.append_cancel_right (List.append_cancel_left (List.append_cancel_left h))
  exact ⟨decimal_inj hlo, decimal_inj h⟩

end Fountainer
