import Fountainer.App.Chart
import Fountainer.App.History

/-!
# Arbitrary replies to `history_read`

The rows of a `history_batch` can be any JSON values. Each row is skipped, inserted, or ends the loop
with an exception; the cursor is stored behind the loop only.
-/

namespace Fountainer

/-- What the loop of `_poll_history` does with a row. -/
inductive RowFate
  | skipped
  | added (seq tsMs mbar : Int)
  /-- The row cannot be read, and the exception is none of those that skip it. -/
  | malformed (e : PyErr)
  /-- No float holds `mbar`. -/
  | overflows (e : PyErr)

def rowFate (cursor : Int) (row : Json) : RowFate :=
  match parseRow row with
  | .error e => if e.skipsRow then .skipped else .malformed e
  | .ok (seq, tsMs, mbar) =>
      if seq ≤ cursor then .skipped
      else match PyFloat.divLit mbar 1000 with
        | .error e => .overflows e
        | .ok _ => .added seq tsMs mbar

def RowFate.ends : RowFate → Bool
  | .malformed _ | .overflows _ => true
  | _ => false

/-- The samples that the loop inserts: `(seq, ts_ms, mbar)`. -/
def insertedRows : Int → List Json → List (Int × Int × Int)
  | _, [] => []
  | cursor, row :: rest =>
      match rowFate cursor row with
      | .skipped => insertedRows cursor rest
      | .added seq tsMs mbar => (seq, tsMs, mbar) :: insertedRows seq rest
      | .malformed _ | .overflows _ => []

def rowNumber (row : Json) : Option Int :=
  match parseRow row with
  | .ok (seq, _, _) => some seq
  | .error _ => none

/-- The greatest number up to the cursor and in the rows. -/
def cursorOver (cursor : Int) (rows : List Json) : Int := (rows.filterMap rowNumber).foldl max cursor

/-- The call of `_hist_add` for a row. -/
def parsedCall (wallNow devNow : Int) (relay : Json) (x : Int × Int × Int) : HistCall :=
  { t := wallNow - max 0 (devNow - x.2.1), p := Shadow.addReading.bar x.2.2, r := relay, seq := some x.1 }

/-! ## The loop -/

variable (lim : Limits) (wallNow devNow : Int) (relay : Json) (st : Shadow)

theorem cursorOver_cons (c : Int) (row : Json) (rows : List Json) :
    cursorOver c (row :: rows) = cursorOver (cursorOver c [row]) rows := by
  simp only [cursorOver, List.filterMap_cons, List.filterMap_nil]
  split <;> rfl

theorem cursorOver_skipped {c : Int} {row : Json} (h : rowFate c row = .skipped) :
    cursorOver c [row] = c := by
  unfold rowFate at h
  simp only [cursorOver, rowNumber, List.filterMap_cons, List.filterMap_nil]
  cases hp : parseRow row with
  | error e => rfl
  | ok x =>
      simp only [hp] at h
      split at h
      · rename_i hle
        simpa using hle
      · split at h <;> cases h

theorem cursorOver_added {c seq ts mbar : Int} {row : Json} (h : rowFate c row = .added seq ts mbar) :
    cursorOver c [row] = seq ∧ c < seq := by
  unfold rowFate at h
  simp only [cursorOver, rowNumber, List.filterMap_cons, List.filterMap_nil]
  cases hp : parseRow row with
  | error e =>
      simp only [hp] at h
      split at h <;> cases h
  | ok x =>
      simp only [hp] at h
      split at h
      · cases h
      · rename_i hlt
        split at h
        · cases h
        · cases h
          have hlt := Int.not_le.mp hlt
          exact ⟨max_eq_right (le_of_lt hlt), hlt⟩

theorem le_cursorOver (c : Int) (rows : List Json) : c ≤ cursorOver c rows := by
  unfold cursorOver
  induction rows.filterMap rowNumber generalizing c with
  | nil => exact le_refl c
  | cons n ns ih => exact le_trans (le_max_left c n) (ih (max c n))

theorem ingest_cons (c : Int) (row : Json) (rest : List Json) :
    ingest lim wallNow devNow relay st c (row :: rest) =
      match rowFate c row with
      | .skipped => ingest lim wallNow devNow relay st c rest
      | .added seq tsMs mbar =>
          ingest lim wallNow devNow relay (st.add lim (parsedCall wallNow devNow relay (seq, tsMs, mbar))) seq rest
      | .malformed e | .overflows e => (st, cursorOver c [row], some e) := by
  unfold rowFate
  rw [ingest]
  simp only [cursorOver, rowNumber, List.filterMap_cons, List.filterMap_nil]
  cases hp : parseRow row with
  | error e =>
      by_cases h : e.skipsRow = true
      · simp only [if_pos h]
      · simp only [if_neg h]
        rfl
  | ok x =>
      obtain ⟨seq, ts, mbar⟩ := x
      by_cases hle : seq ≤ c
      · simp only [if_pos hle]
      · have hlt := Int.not_le.mp hle
        simp only [if_neg hle]
        cases hd : PyFloat.divLit mbar 1000 with
        | error e => simp [max_eq_right (le_of_lt hlt)]
        | ok f => simp only [parsedCall, Shadow.add, Shadow.addReading.bar, hd]

/-- The chart behind the loop, and the cursor if no row ended it. -/
theorem ingest_result (c : Int) (rows : List Json) :
    let out := ingest lim wallNow devNow relay st c rows
    out.1 = st.addAll lim ((insertedRows c rows).map (parsedCall wallNow devNow relay)) ∧
      (out.2.2 = none → out.2.1 = cursorOver c rows) := by
  induction rows generalizing st c with
  | nil => exact ⟨rfl, fun _ => rfl⟩
  | cons row rest ih =>
      rw [ingest_cons, insertedRows, cursorOver_cons c row rest]
      cases hf : rowFate c row with
      | skipped =>
          rw [cursorOver_skipped hf]
          exact ih st c
      | added seq ts mbar =>
          rw [(cursorOver_added hf).1]
          exact ih _ seq
      | malformed e | overflows e => exact ⟨rfl, fun h => by cases h⟩

theorem ingest_append (c : Int) (xs ys : List Json) :
    ingest lim wallNow devNow relay st c (xs ++ ys) =
      match ingest lim wallNow devNow relay st c xs with
      | (st', c', none) => ingest lim wallNow devNow relay st' c' ys
      | (st', c', some e) => (st', c', some e) := by
  induction xs generalizing st c with
  | nil => rfl
  | cons row xs ih =>
      rw [List.cons_append, ingest_cons, ingest_cons]
      cases rowFate c row with
      | skipped => exact ih st c
      | added seq ts mbar => exact ih _ seq
      | malformed e | overflows e => rfl

theorem mem_insertedRows {c : Int} {rows : List Json} {x : Int × Int × Int}
    (h : x ∈ insertedRows c rows) : c < x.1 ∧ x.1 ≤ cursorOver c rows := by
  induction rows generalizing c with
  | nil => cases h
  | cons row rest ih =>
      rw [insertedRows] at h
      rw [cursorOver_cons]
      cases hf : rowFate c row with
      | skipped =>
          rw [cursorOver_skipped hf]
          rw [hf] at h
          exact ih h
      | added seq ts mbar =>
          obtain ⟨hseq, hlt⟩ := cursorOver_added hf
          rw [hf] at h
          rw [hseq]
          rcases List.mem_cons.mp h with rfl | h
          · exact ⟨hlt, le_cursorOver _ _⟩
          · exact ⟨lt_trans hlt (ih h).1, (ih h).2⟩
      | malformed e | overflows e =>
          rw [hf] at h
          cases h

theorem forall_split_cons {α : Type} {P : List α → α → Prop} {a : α} {l : List α} :
    (∀ xs x ys, a :: l = xs ++ x :: ys → P xs x) ↔
      P [] a ∧ ∀ xs x ys, l = xs ++ x :: ys → P (a :: xs) x := by
  constructor
  · intro h
    exact ⟨h [] a l rfl, fun xs x ys hl => h (a :: xs) x ys (congrArg (a :: ·) hl)⟩
  · rintro ⟨ha, hl⟩ xs x ys heq
    cases xs with
    | nil =>
        cases heq
        exact ha
    | cons b xs =>
        cases heq
        exact hl xs x ys rfl

/-- The loop ends without an exception if no row raises one at the numbers before it. -/
theorem ingest_none_iff (c : Int) (rows : List Json) :
    (ingest lim wallNow devNow relay st c rows).2.2 = none ↔
      ∀ xs row ys, rows = xs ++ row :: ys → (rowFate (cursorOver c xs) row).ends = false := by
  induction rows generalizing st c with
  | nil => exact iff_of_true rfl fun xs row ys h => absurd h (by simp)
  | cons row rest ih =>
      rw [ingest_cons, forall_split_cons (P := fun xs row => (rowFate (cursorOver c xs) row).ends = false)]
      change _ ↔ (rowFate c row).ends = false ∧ _
      have hcons : ∀ xs, cursorOver c (row :: xs) = cursorOver (cursorOver c [row]) xs := cursorOver_cons c row
      cases hf : rowFate c row with
      | skipped =>
          rw [cursorOver_skipped hf] at hcons
          simpa [RowFate.ends, hcons] using ih st c
      | added seq ts mbar =>
          rw [(cursorOver_added hf).1] at hcons
          simpa [RowFate.ends, hcons] using ih _ seq
      | malformed e | overflows e => simp [RowFate.ends]

theorem ingest_concat {c : Int} {xs : List Json} (row : Json)
    (h : (ingest lim wallNow devNow relay st c xs).2.2 = none) :
    ∃ st', ingest lim wallNow devNow relay st c xs = (st', cursorOver c xs, none) ∧
      ingest lim wallNow devNow relay st c (xs ++ [row]) =
        match rowFate (cursorOver c xs) row with
        | .skipped => (st', cursorOver c xs, none)
        | .added seq tsMs mbar => (st'.add lim (parsedCall wallNow devNow relay (seq, tsMs, mbar)), seq, none)
        | .malformed e | .overflows e => (st', cursorOver (cursorOver c xs) [row], some e) := by
  have hcur := (ingest_result lim wallNow devNow relay st c xs).2 h
  have hxs : ingest lim wallNow devNow relay st c xs =
      ((ingest lim wallNow devNow relay st c xs).1, cursorOver c xs, none) := Prod.ext rfl (Prod.ext hcur h)
  refine ⟨_, hxs, ?_⟩
  rw [ingest_append, hxs]
  simp only
  rw [ingest_cons]
  rfl

theorem ingest_split {c : Int} {rows : List Json} {e : PyErr}
    (h : (ingest lim wallNow devNow relay st c rows).2.2 = some e) :
    ∃ xs row ys, rows = xs ++ row :: ys ∧ (ingest lim wallNow devNow relay st c xs).2.2 = none ∧
      (rowFate (cursorOver c xs) row).ends = true := by
  by_contra hno
  have hnone : ∀ xs row ys, rows = xs ++ row :: ys → (ingest lim wallNow devNow relay st c xs).2.2 = none →
      (rowFate (cursorOver c xs) row).ends = false := fun xs row ys hrows hxs =>
    Bool.eq_false_iff.mpr fun hends => hno ⟨xs, row, ys, hrows, hxs, hends⟩
  -- then no beginning of the rows ends the loop
  have hall : ∀ xs ys, rows = xs ++ ys → (ingest lim wallNow devNow relay st c xs).2.2 = none := by
    intro xs
    induction xs using List.reverseRecOn with
    | nil => exact fun _ _ => rfl
    | append_singleton xs row ih =>
        intro ys hrows
        rw [List.append_assoc] at hrows
        have hxs := ih _ hrows
        have hrow := hnone xs row ys hrows hxs
        obtain ⟨st', -, hcat⟩ := ingest_concat lim wallNow devNow relay st row hxs
        rw [hcat]
        cases hf : rowFate (cursorOver c xs) row with
        | skipped | added seq ts mbar => rfl
        | malformed e | overflows e =>
            rw [hf] at hrow
            cases hrow
  rw [hall rows [] (List.append_nil rows).symm] at h
  cases h

theorem ingest_skipped {c : Int} {xs : List Json} (h : ∀ x ∈ xs, rowFate c x = .skipped) (ys : List Json) :
    ingest lim wallNow devNow relay st c (xs ++ ys) = ingest lim wallNow devNow relay st c ys ∧
      insertedRows c (xs ++ ys) = insertedRows c ys := by
  induction xs with
  | nil => exact ⟨rfl, rfl⟩
  | cons x xs ih =>
      rw [List.cons_append, ingest_cons, insertedRows, h x List.mem_cons_self]
      exact ih fun y hy => h y (.tail _ hy)

theorem skipped_of_inserted_nil {c : Int} {xs : List Json} (h : insertedRows c xs = [])
    (hnone : (ingest lim wallNow devNow relay st c xs).2.2 = none) : ∀ x ∈ xs, rowFate c x = .skipped := by
  induction xs with
  | nil => exact fun x hx => absurd hx List.not_mem_nil
  | cons x xs ih =>
      rw [insertedRows] at h
      rw [ingest_cons] at hnone
      cases hf : rowFate c x with
      | skipped =>
          rw [hf] at h hnone
          exact List.forall_mem_cons.mpr ⟨hf, ih h hnone⟩
      | added seq ts mbar =>
          rw [hf] at h
          cases h
      | malformed e | overflows e =>
          rw [hf] at hnone
          cases hnone

/-! ## The reply -/

/-- The cursor, the device clock and the rows that the loop starts with. -/
def historyRows (st : Shadow) (res : Dict) : Option (Int × Int × List Json) :=
  match (res.get (py "boot_id")).toIntOr 0, (res.get (py "next_seq")).toIntOr 1,
      (res.get (py "first_seq_available")).toIntOr 1, (res.get (py "now_ms")).toIntOr 0,
      ((res.get (py "samples")).or (.arr [])).iter with
  | .ok boot, .ok next, .ok _, .ok devNow, .ok rows => some ((st.resetCursor boot next).histSeq, devNow, rows)
  | _, _, _, _, _ => none

/-- The samples that a reply inserts. -/
def insertedBy (st : Shadow) (res : Dict) : List (Int × Int × Int) :=
  match historyRows st res with
  | some (cursor, _, rows) => insertedRows cursor rows
  | none => []

/-- The reply with other rows. -/
def withRows (res : Dict) (rows : List Json) : Dict := Dict.set res (py "samples") (.arr rows)

/-- The end of an iteration: only a loop that ran through stores its cursor. -/
def storeCursor : Shadow × Int × Option PyErr → Shadow × Option PyErr
  | (st, _, some e) => (st, some e)
  | (st, cursor, none) => ({ st with histSeq := cursor }, none)

theorem Shadow.resetCursor_chart (st : Shadow) (boot next : Int) :
    (st.resetCursor boot next).hist = st.hist ∧ (st.resetCursor boot next).histI = st.histI := by
  unfold resetCursor
  split <;> exact ⟨rfl, rfl⟩

/-- The loop runs on a shadow and a relay state that do not depend on the rows. -/
theorem historyBatch_rows (now : Clock) {res : Dict} {c devNow : Int} {rows : List Json}
    (h : historyRows st res = some (c, devNow, rows)) :
    ∃ st' relay, (st'.histSeq = c ∧ st'.hist = st.hist ∧ st'.histI = st.histI) ∧
      historyBatch lim st now res = storeCursor (ingest lim now.ms devNow relay st' c rows) ∧
      ∀ rows', historyBatch lim st now (withRows res rows') =
        storeCursor (ingest lim now.ms devNow relay st' c rows') := by
  unfold historyRows at h
  split at h
  case h_2 => cases h
  case h_1 boot next first dev rows hboot hnext hfirst hdev hrows =>
    cases h
    have hget : ∀ (k : Str) (rows' : List Json), k ≠ py "samples" → (withRows res rows').get k = res.get k :=
      fun k rows' hk => Dict.get_set_of_ne hk
    have hkeep : ∀ rows', (withRows res rows').get (py "boot_id") = res.get (py "boot_id") ∧
        (withRows res rows').get (py "next_seq") = res.get (py "next_seq") ∧
        (withRows res rows').get (py "first_seq_available") = res.get (py "first_seq_available") ∧
        (withRows res rows').get (py "now_ms") = res.get (py "now_ms") := fun rows' =>
      ⟨hget _ _ (by decide), hget _ _ (by decide), hget _ _ (by decide), hget _ _ (by decide)⟩
    have hiter : ∀ rows', (((withRows res rows').get (py "samples")).or (.arr [])).iter = .ok rows' := by
      intro rows'
      rw [withRows, Dict.get_set_self, or_arr]
      rfl
    have hcur := (Shadow.reportGap_cursor (st.resetCursor boot next) now first).1
    obtain ⟨hhist, hi⟩ := Shadow.reportGap_chart (st.resetCursor boot next) now first
    let relay : Json := .int (if (Dict.get ((st.resetCursor boot next).reportGap now first).dp
      (py "Fon_Relay_Output")).truthy then 1 else 0)
    refine ⟨(st.resetCursor boot next).reportGap now first, relay, ⟨hcur, ?_, ?_⟩, ?_, fun rows' => ?_⟩
    · rw [hhist, (Shadow.resetCursor_chart st boot next).1]
    · rw [hi, (Shadow.resetCursor_chart st boot next).2]
    · unfold historyBatch
      simp only [hboot, hnext, hfirst, hdev, hrows, hcur]
      rfl
    · unfold historyBatch
      obtain ⟨hb, hn, hf, hd⟩ := hkeep rows'
      simp only [hb, hn, hf, hd, hboot, hnext, hfirst, hdev, hiter, hcur]
      rfl

/-- The chart behind a reply is the one before it with the calls for `insertedBy`. -/
theorem historyBatch_inserts (now : Clock) (res : Dict) :
    ∃ devNow relay, let calls := (insertedBy st res).map (parsedCall now.ms devNow relay)
      (historyBatch lim st now res).1.hist = (st.addAll lim calls).hist ∧
        (historyBatch lim st now res).1.histI = (st.addAll lim calls).histI := by
  cases h : historyRows st res with
  | none =>
      refine ⟨0, .null, ?_⟩
      simp only [insertedBy, h, List.map_nil, Shadow.addAll, List.foldl_nil]
      unfold historyRows at h
      unfold historyBatch
      split
      · exact ⟨rfl, rfl⟩
      · exact ⟨rfl, rfl⟩
      · rename_i boot next hboot hnext
        obtain ⟨hr, hri⟩ := Shadow.resetCursor_chart st boot next
        simp only
        split
        · exact ⟨hr, hri⟩
        · rename_i first hfirst
          obtain ⟨hg, hgi⟩ := Shadow.reportGap_chart (st.resetCursor boot next) now first
          split
          · exact ⟨hg.trans hr, hgi.trans hri⟩
          · exact ⟨hg.trans hr, hgi.trans hri⟩
          · rename_i devNow rows hdev hrows
            simp [hboot, hnext, hfirst, hdev, hrows] at h
  | some header =>
      obtain ⟨c, devNow, rows⟩ := header
      obtain ⟨st', relay, ⟨-, hhist, hi⟩, hbatch, -⟩ := historyBatch_rows lim st now h
      refine ⟨devNow, relay, ?_⟩
      have hchart := (ingest_result lim now.ms devNow relay st' c rows).1
      have hstore : ∀ out : Shadow × Int × Option PyErr,
          (storeCursor out).1.hist = out.1.hist ∧ (storeCursor out).1.histI = out.1.histI := by
        rintro ⟨s, c', _ | e⟩ <;> exact ⟨rfl, rfl⟩
      simp only [insertedBy, h]
      rw [hbatch, (hstore _).1, (hstore _).2, hchart, addAll_congr lim hhist hi, addAll_histI,
        addAll_histI, hi]
      exact ⟨rfl, rfl⟩

/-! ## The stored cursor -/

/-- The rows that a reply brings, whatever happens in the loop. -/
def sampleRows (st : Shadow) (res : Dict) : List Json :=
  match historyRows st res with
  | some (_, _, rows) => rows
  | none => []

structure IngestsAtomically (lim : Limits) (st : Shadow) (now : Clock) (res : Dict) : Prop where
  /-- Every inserted sample is covered by the stored cursor. -/
  covered : ∀ x ∈ insertedBy st res, x.1 ≤ (historyBatch lim st now res).1.histSeq
  /-- A malformed row changes nothing. -/
  skips : ∀ xs row, xs ++ [row] <+: sampleRows st res → (parseRow row).isOk = false →
    historyBatch lim st now (withRows res (xs ++ [row])) = historyBatch lim st now (withRows res xs)

/-- No row ends the loop at the numbers before it, or the first row that is not skipped ends it
because no float holds its value. -/
def RowsSafe (cursor : Int) (rows : List Json) : Prop :=
  (∀ xs row ys, rows = xs ++ row :: ys → (rowFate (cursorOver cursor xs) row).ends = false) ∨
    ∃ xs row ys e, rows = xs ++ row :: ys ∧ (∀ x ∈ xs, rowFate cursor x = .skipped) ∧
      rowFate cursor row = .overflows e

/-- Whether a row can be read does not depend on the cursor. -/
theorem rowFate_malformed {row : Json} (h : (parseRow row).isOk = false) :
    (∀ c, rowFate c row = .skipped) ∨ ∃ e, ∀ c, rowFate c row = .malformed e := by
  unfold rowFate
  cases hp : parseRow row with
  | ok x =>
      rw [hp] at h
      cases h
  | error e =>
      by_cases hs : e.skipsRow = true
      · exact .inl fun c => if_pos hs
      · exact .inr ⟨e, fun c => if_neg hs⟩

theorem parseRow_malformed {c : Int} {row : Json} {e : PyErr} (h : rowFate c row = .malformed e) :
    (parseRow row).isOk = false := by
  unfold rowFate at h
  cases hp : parseRow row with
  | error e => rfl
  | ok x =>
      simp only [hp] at h
      split at h
      · cases h
      · split at h <;> cases h

theorem insertedRows_append (c : Int) (xs ys : List Json) :
    ∃ zs, insertedRows c (xs ++ ys) = insertedRows c xs ++ zs := by
  induction xs generalizing c with
  | nil => exact ⟨_, rfl⟩
  | cons x xs ih =>
      rw [List.cons_append, insertedRows, insertedRows]
      cases rowFate c x with
      | skipped => exact ih c
      | added seq ts mbar =>
          obtain ⟨zs, hzs⟩ := ih seq
          exact ⟨zs, congrArg _ hzs⟩
      | malformed e | overflows e => exact ⟨[], rfl⟩

variable {lim st} {now : Clock} {res : Dict} {c devNow : Int} {rows : List Json}

theorem sampleRows_eq (hh : historyRows st res = some (c, devNow, rows)) : sampleRows st res = rows := by
  rw [sampleRows, hh]

theorem insertedBy_eq (hh : historyRows st res = some (c, devNow, rows)) :
    insertedBy st res = insertedRows c rows := by
  rw [insertedBy, hh]

theorem IngestsAtomically.rowsSafe (hh : historyRows st res = some (c, devNow, rows))
    (h : IngestsAtomically lim st now res) : RowsSafe c rows := by
  obtain ⟨st', relay, ⟨hcur, -, -⟩, hbatch, hwith⟩ := historyBatch_rows lim st now hh
  cases herr : (ingest lim now.ms devNow relay st' c rows).2.2 with
  | none => exact .inl ((ingest_none_iff lim now.ms devNow relay st' c rows).mp herr)
  | some e =>
      right
      obtain ⟨xs, row, ys, hrows, hxs, hends⟩ := ingest_split lim now.ms devNow relay st' herr
      obtain ⟨st'', hprefix, hconcat⟩ := ingest_concat lim now.ms devNow relay st' row hxs
      have hseq : (historyBatch lim st now res).1.histSeq = c := by
        rw [hbatch]
        have hout := (ingest_result lim now.ms devNow relay st' c rows).1
        generalize ingest lim now.ms devNow relay st' c rows = out at herr hout
        obtain ⟨s, c', err⟩ := out
        cases herr
        rw [storeCursor, hout, addAll_eq, hcur]
      have hnil : insertedRows c rows = [] := List.eq_nil_iff_forall_not_mem.mpr fun x hx => by
        have hle := h.covered x (insertedBy_eq hh ▸ hx)
        rw [hseq] at hle
        exact not_lt_of_ge hle (mem_insertedRows hx).1
      have hskip : ∀ x ∈ xs, rowFate c x = .skipped := by
        refine skipped_of_inserted_nil lim now.ms devNow relay st' ?_ hxs
        obtain ⟨zs, hzs⟩ := insertedRows_append c xs (row :: ys)
        rw [← hrows, hnil] at hzs
        exact (List.append_eq_nil_iff.mp hzs.symm).1
      have hover : cursorOver c xs = c := by
        have hsame := (ingest_skipped lim now.ms devNow relay st' hskip []).1
        rw [List.append_nil, hprefix] at hsame
        exact (Prod.mk.inj (Prod.mk.inj hsame).2).1
      rw [hover] at hends hconcat
      cases hf : rowFate c row with
      | skipped | added seq ts mbar =>
          rw [hf] at hends
          cases hends
      | overflows e => exact ⟨xs, row, ys, e, hrows, hskip, hf⟩
      | malformed e =>
          -- the row would have been skipped
          have hpre : xs ++ [row] <+: sampleRows st res := by
            rw [sampleRows_eq hh, hrows]
            exact ⟨ys, by simp⟩
          have heq := h.skips xs row hpre (parseRow_malformed hf)
          rw [hwith, hwith, hprefix, hconcat, hf] at heq
          cases (Prod.mk.inj heq).2

theorem RowsSafe.skips (h : RowsSafe c rows) (wallNow : Int) (relay : Json) {xs : List Json} {row : Json}
    (hpre : xs ++ [row] <+: rows) (hbad : (parseRow row).isOk = false) :
    storeCursor (ingest lim wallNow devNow relay st c (xs ++ [row])) =
      storeCursor (ingest lim wallNow devNow relay st c xs) := by
  obtain ⟨ys, hrows⟩ := hpre
  rw [List.append_assoc] at hrows
  cases herr : (ingest lim wallNow devNow relay st c xs).2.2 with
  | some e =>
      rw [ingest_append]
      generalize ingest lim wallNow devNow relay st c xs = out at herr
      obtain ⟨s, c', err⟩ := out
      cases herr
      rfl
  | none =>
      obtain ⟨st', hxs, hconcat⟩ := ingest_concat lim wallNow devNow relay st row herr
      rw [hxs, hconcat]
      rcases rowFate_malformed hbad with hskip | ⟨e, hmal⟩
      · rw [hskip]
      · rcases h with hall | ⟨zs, x, ys', e', hsplit, hskip, hover⟩
        · have hends := hall xs row ys hrows.symm
          rw [hmal] at hends
          cases hends
        · have hne : row ≠ x := by
            rintro rfl
            rw [hmal] at hover
            cases hover
          -- the malformed row stands before or behind the row `x` that ends the loop
          rw [hsplit] at hrows
          rcases List.append_eq_append_iff.mp hrows with ⟨ws, hzs, hws⟩ | ⟨ws, hxs', hws⟩
          · cases ws with
            | nil => exact absurd (List.cons.inj hws).1 hne
            | cons w ws =>
                have hrow := hskip row (by rw [hzs, (List.cons.inj hws).1]; simp)
                rw [hmal] at hrow
                cases hrow
          · cases ws with
            | nil => exact absurd (List.cons.inj hws).1.symm hne
            | cons w ws =>
                cases (List.cons.inj hws).1
                rw [hxs', (ingest_skipped lim wallNow devNow relay st hskip _).1, ingest_cons, hover] at herr
                cases herr

theorem RowsSafe.covers (hh : historyRows st res = some (c, devNow, rows)) (h : RowsSafe c rows) :
    ∀ x ∈ insertedBy st res, x.1 ≤ (historyBatch lim st now res).1.histSeq := by
  obtain ⟨st', relay, -, hbatch, -⟩ := historyBatch_rows lim st now hh
  rw [insertedBy_eq hh, hbatch]
  intro x hx
  rcases h with hall | ⟨xs, row, ys, e, rfl, hskip, hover⟩
  · have hnone := (ingest_none_iff lim now.ms devNow relay st' c rows).mpr hall
    have hcur := (ingest_result lim now.ms devNow relay st' c rows).2 hnone
    generalize ingest lim now.ms devNow relay st' c rows = out at hnone hcur
    obtain ⟨s, c', err⟩ := out
    cases hnone
    cases hcur
    exact (mem_insertedRows hx).2
  · rw [(ingest_skipped lim now.ms devNow relay st' hskip _).2, insertedRows, hover] at hx
    cases hx

/-- The samples that a reply inserts are covered by the stored cursor and malformed rows are skipped,
exactly if the rows are safe. -/
theorem ingest_atomic_iff (lim : Limits) (st : Shadow) (now : Clock) (res : Dict) :
    IngestsAtomically lim st now res ↔
      ∀ c devNow rows, historyRows st res = some (c, devNow, rows) → RowsSafe c rows := by
  constructor
  · exact fun h c devNow rows hh => h.rowsSafe hh
  · intro h
    cases hh : historyRows st res with
    | none =>
        refine ⟨fun x hx => ?_, fun xs row hpre _ => ?_⟩
        · rw [insertedBy, hh] at hx
          cases hx
        · rw [sampleRows, hh, List.prefix_nil] at hpre
          exact absurd hpre (by simp)
    | some header =>
        obtain ⟨c, devNow, rows⟩ := header
        have hsafe := h c devNow rows hh
        refine ⟨hsafe.covers hh, fun xs row hpre hbad => ?_⟩
        obtain ⟨st', relay, -, -, hwith⟩ := historyBatch_rows lim st now hh
        rw [sampleRows_eq hh] at hpre
        rw [hwith, hwith]
        exact hsafe.skips now.ms relay hpre hbad

/-- A good row and a row with `1e999`. -/
def infiniteReply : Dict :=
  [(py "boot_id", .int 7), (py "now_ms", .int 9000), (py "next_seq", .int 3),
   (py "first_seq_available", .int 1),
   (py "samples", .arr [.arr [.int 1, .int 1000, .int 2500, .int 0],
     .arr [.int 2, .float (.inf false), .int 2500, .int 0]])]

/-- The exception leaves the cursor at 0, and the next session inserts the sample again. -/
theorem infinite_row_inserts_twice :
    ¬IngestsAtomically {} {} 0 infiniteReply ∧
      ((historyBatch {} (historyBatch {} {} 0 infiniteReply).1 (seconds 30) infiniteReply).1.hist.map
        Sample.seq) = [some 1, some 1] := by
  constructor
  · intro h
    exact absurd (h.covered (1, 1000, 2500) (by decide +kernel)) (by decide +kernel)
  · decide +kernel

end Fountainer
