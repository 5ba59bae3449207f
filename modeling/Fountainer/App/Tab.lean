import Fountainer.App.Web

/-!
# The chart of a browser tab (`server/static/index.html`)

`HIST`, `histLastI` and `HIST_SEQS` with `pollHistory`, `pickDevice` and the selection in `refresh`.
-/

namespace Fountainer

mutual
/-- The text that `json.dumps` writes is JSON: `NaN` and the infinities are not. -/
def Json.isStrict : Json → Bool
  | .float f => f.toRat.isSome
  | .arr xs => isStrictList xs
  | .obj kvs => isStrictDict kvs
  | _ => true

def Json.isStrictList : List Json → Bool
  | [] => true
  | x :: xs => x.isStrict && isStrictList xs

def Json.isStrictDict : List (Str × Json) → Bool
  | [] => true
  | (_, x) :: xs => x.isStrict && isStrictDict xs
end

/-- `r.json()` can read the sample. -/
def Sample.isStrict (s : Sample) : Bool := s.p.isStrict && s.r.isStrict

/-- The number that `r.json()` reads: the nearest double. The infinities stand behind all doubles. -/
def jsNumber (i : Int) : ℚ :=
  match PyFloat.ofRat i with
  | .inf neg => if neg then -(2 ^ 1024) else 2 ^ 1024
  | f => f.toRat.getD 0

/-- `s.t` of a sample that has been read. -/
def Sample.time (s : Sample) : ℚ := jsNumber s.t

structure Tab where
  /-- `CUR`. -/
  cur : Option Str := none
  /-- `HIST`. -/
  hist : List Sample := []
  /-- `histLastI`. -/
  lastI : Nat := 0
  /-- `HIST_SEQS`. -/
  seqs : List ℚ := []

namespace Tab

/-- The insertion of `pollHistory`: behind the last sample that is not later. -/
def insertSample (s : Sample) (hist : List Sample) : List Sample :=
  let later := hist.reverse.takeWhile fun x => x.time > s.time
  hist.take (hist.length - later.length) ++ s :: hist.drop (hist.length - later.length)

/-- The loop body of `pollHistory`. -/
def mergeSample (tab : Tab) (s : Sample) : Tab :=
  let tab := if tab.lastI < s.i then { tab with lastI := s.i } else tab
  match s.seq with
  | some q =>
      if jsNumber q ∈ tab.seqs then tab
      else { tab with seqs := jsNumber q :: tab.seqs, hist := insertSample s tab.hist }
  | none => { tab with hist := insertSample s tab.hist }

/-- The most samples that `HIST` keeps. -/
def histMax : Nat := 6000

/-- `pollHistory` with the samples of a reply. -/
def merge (tab : Tab) (samples : List Sample) : Tab :=
  let tab := samples.foldl mergeSample tab
  { tab with hist := keepLast histMax tab.hist }

/-- `pollHistory` from the response on: errors are swallowed. -/
def receive (tab : Tab) : Except PyErr (Option (List Sample)) → Tab
  | .ok (some samples) => if samples.all Sample.isStrict then tab.merge samples else tab
  | _ => tab

/-- The device that `pollHistory` asks for: the selected one, unless `!CUR`. -/
def asks (tab : Tab) : Option Str := tab.cur.filter (· ≠ [])

/-- `pickDevice`, up to its `pollHistory`. -/
def pickDevice (tab : Tab) (id : Str) : Tab :=
  if tab.cur = some id then tab else { cur := some id }

/-- The selection in `refresh` for the listed devices and the saved one. -/
def refresh (tab : Tab) (devices : List Str) (saved : Option Str) : Tab :=
  let cur := if tab.asks.all (· ∈ devices) then tab.cur else none
  match ({ tab with cur } : Tab).asks, devices with
  | none, first :: _ =>
      { tab with cur := some (match saved with
          | some d => if d ∈ devices then d else first
          | none => first) }
  | _, _ => { tab with cur }

/-! ## Selection -/

theorem refresh_listed {tab : Tab} {devices : List Str} (h : tab.asks.any (· ∈ devices) = true)
    (saved : Option Str) : tab.refresh devices saved = tab := by
  cases hd : tab.asks with
  | none => simp [hd] at h
  | some d =>
      rw [hd] at h
      simp only [refresh, hd, Option.all_some, show decide (d ∈ devices) = true from h, if_true]

theorem refresh_chart (tab : Tab) (devices : List Str) (saved : Option Str) :
    (tab.refresh devices saved).hist = tab.hist ∧ (tab.refresh devices saved).lastI = tab.lastI := by
  unfold refresh
  dsimp only
  split <;> exact ⟨rfl, rfl⟩

/-! ## Merging -/

/-- The number that `HIST_SEQS` keeps of the sample. -/
def number (s : Sample) : Option ℚ := s.seq.map jsNumber

/-- The sample is skipped as a known one. -/
def knows (tab : Tab) (s : Sample) : Bool := (number s).any (· ∈ tab.seqs)

theorem insertSample_eq (s : Sample) (hist : List Sample) :
    insertSample s hist = Stable.insertBehind Sample.time s hist :=
  Stable.insertBehind_scan (fun _ => decide_eq_true_iff) hist

theorem mergeSample_eq (tab : Tab) (s : Sample) : tab.mergeSample s =
    if tab.knows s then { tab with lastI := max tab.lastI s.i }
    else { tab with lastI := max tab.lastI s.i, seqs := (number s).toList ++ tab.seqs
                    hist := insertSample s tab.hist } := by
  have hlast : (if tab.lastI < s.i then { tab with lastI := s.i } else tab) =
      { tab with lastI := max tab.lastI s.i } := by
    split
    · rename_i h
      rw [Nat.max_eq_right (Nat.le_of_lt h)]
    · rename_i h
      rw [Nat.max_eq_left (Nat.not_lt.mp h)]
  unfold mergeSample knows number
  rw [hlast]
  cases hs : s.seq with
  | none => simp
  | some q => by_cases hq : jsNumber q ∈ tab.seqs <;> simp [hq]

theorem mergeSample_lastI (tab : Tab) (s : Sample) : (tab.mergeSample s).lastI = max tab.lastI s.i := by
  rw [mergeSample_eq]
  split <;> rfl

theorem mergeSample_cur (tab : Tab) (s : Sample) : (tab.mergeSample s).cur = tab.cur := by
  rw [mergeSample_eq]
  split <;> rfl

theorem mergeSample_seqs (tab : Tab) (s : Sample) : tab.seqs ⊆ (tab.mergeSample s).seqs := by
  rw [mergeSample_eq]
  split
  · exact List.Subset.refl _
  · exact List.subset_append_right ..

theorem knows_mergeSample {tab : Tab} {x : Sample} (h : tab.knows x = true) (s : Sample) :
    (tab.mergeSample s).knows x = true := by
  simp only [knows, Option.any_eq_true, decide_eq_true_eq] at h ⊢
  obtain ⟨q, hq, hmem⟩ := h
  exact ⟨q, hq, tab.mergeSample_seqs s hmem⟩

theorem mergeSample_sorted {tab : Tab} (h : tab.hist.Pairwise fun a b => a.time ≤ b.time) (s : Sample) :
    (tab.mergeSample s).hist.Pairwise fun a b => a.time ≤ b.time := by
  rw [mergeSample_eq]
  split
  · exact h
  · rw [insertSample_eq]
    exact Stable.pairwise_insertBehind (fun _ _ h => h) (fun _ _ h => h) (fun _ _ h => le_of_lt h) h

/-! ## Merging a reply -/

theorem foldl_lastI (samples : List Sample) (tab : Tab) :
    (samples.foldl mergeSample tab).lastI = (samples.map Sample.i).foldl max tab.lastI := by
  induction samples generalizing tab with
  | nil => rfl
  | cons s samples ih =>
      rw [List.foldl_cons, ih, mergeSample_lastI]
      rfl

theorem foldl_cur (samples : List Sample) (tab : Tab) :
    (samples.foldl mergeSample tab).cur = tab.cur := by
  induction samples generalizing tab with
  | nil => rfl
  | cons s samples ih => rw [List.foldl_cons, ih, mergeSample_cur]

/-- The samples that are not known are inserted at most once. -/
theorem foldl_subperm (samples : List Sample) (tab : Tab) :
    (samples.foldl mergeSample tab).hist.Subperm (samples.filter (!tab.knows ·) ++ tab.hist) := by
  induction samples generalizing tab with
  | nil => exact List.Subperm.refl _
  | cons s samples ih =>
      have hless : (samples.filter (!(tab.mergeSample s).knows ·)).Subperm
          (samples.filter (!tab.knows ·)) := by
        refine (List.monotone_filter_right samples fun x hx => ?_).subperm
        simp only [Bool.not_eq_true', ← Bool.not_eq_true] at hx ⊢
        exact fun h => hx (knows_mergeSample h s)
      refine (ih _).trans (((List.subperm_append_right _).mpr hless).trans ?_)
      rw [mergeSample_eq]
      cases hs : tab.knows s with
      | true => simp [hs, List.Subperm.refl]
      | false =>
          simp only [hs, Bool.false_eq_true, if_false, Bool.not_false, List.filter_cons_of_pos, insertSample_eq]
          exact (((Stable.insertBehind_perm ..).append_left _).trans List.perm_middle).subperm

theorem foldl_sorted {samples : List Sample} {tab : Tab} (h : tab.hist.Pairwise fun a b => a.time ≤ b.time) :
    (samples.foldl mergeSample tab).hist.Pairwise fun a b => a.time ≤ b.time := by
  induction samples generalizing tab with
  | nil => exact h
  | cons s samples ih => exact ih (mergeSample_sorted h s)

/-- No sample has a device number that the tab knows or that another sample has. -/
def Fresh (tab : Tab) (samples : List Sample) : Prop :=
  (samples.filterMap number).Nodup ∧ ∀ q ∈ samples.filterMap number, q ∉ tab.seqs

instance (tab : Tab) (samples : List Sample) : Decidable (tab.Fresh samples) :=
  inferInstanceAs (Decidable (_ ∧ _))

theorem Fresh.tail {tab : Tab} {s : Sample} {samples : List Sample} (h : tab.Fresh (s :: samples)) {i : Nat}
    {hist : List Sample} :
    ({ tab with lastI := i, seqs := (number s).toList ++ tab.seqs, hist } : Tab).Fresh samples := by
  obtain ⟨hnd, hnew⟩ := h
  cases hs : number s with
  | none =>
      rw [List.filterMap_cons_none hs] at hnd hnew
      exact ⟨hnd, hnew⟩
  | some q =>
      rw [List.filterMap_cons_some hs] at hnd hnew
      obtain ⟨hq, hnd⟩ := List.nodup_cons.mp hnd
      refine ⟨hnd, fun q' hq' hmem => ?_⟩
      rcases List.mem_cons.mp hmem with rfl | hmem
      · exact hq hq'
      · exact hnew q' (List.mem_cons_of_mem _ hq') hmem

theorem foldl_fresh {samples : List Sample} {tab : Tab} (h : tab.Fresh samples) :
    (samples.foldl mergeSample tab).hist.Perm (samples ++ tab.hist) := by
  induction samples generalizing tab with
  | nil => exact .refl _
  | cons s samples ih =>
      obtain ⟨hnd, hnew⟩ := h
      have hknown : tab.knows s = false := by
        rw [knows, Option.any_eq_false]
        intro q hq
        simpa using hnew q (List.mem_filterMap.mpr ⟨s, List.mem_cons_self, hq⟩)
      have hmerge : tab.mergeSample s = { tab with
          lastI := max tab.lastI s.i, seqs := (number s).toList ++ tab.seqs,
          hist := insertSample s tab.hist } := by
        rw [mergeSample_eq, hknown]
        rfl
      have hfresh : (tab.mergeSample s).Fresh samples := by
        rw [hmerge]
        exact (Fresh.tail ⟨hnd, hnew⟩)
      rw [List.foldl_cons]
      refine (ih hfresh).trans ?_
      rw [hmerge, insertSample_eq]
      exact ((Stable.insertBehind_perm _ _ _).append_left samples).trans List.perm_middle

theorem merge_lastI (tab : Tab) (samples : List Sample) :
    (tab.merge samples).lastI = (samples.map Sample.i).foldl max tab.lastI := by
  rw [← foldl_lastI, merge]

theorem merge_cur (tab : Tab) (samples : List Sample) : (tab.merge samples).cur = tab.cur := by
  rw [← foldl_cur samples tab, merge]

theorem merge_hist (tab : Tab) (samples : List Sample) :
    (tab.merge samples).hist = keepLast histMax (samples.foldl mergeSample tab).hist := by
  rw [merge]

theorem merge_subperm (tab : Tab) (samples : List Sample) :
    (tab.merge samples).hist.Subperm (samples.filter (!tab.knows ·) ++ tab.hist) := by
  rw [merge_hist]
  exact (keepLast_sublist _ _).subperm.trans (foldl_subperm samples tab)

theorem merge_sorted {tab : Tab} (h : tab.hist.Pairwise fun a b => a.time ≤ b.time) (samples : List Sample) :
    (tab.merge samples).hist.Pairwise fun a b => a.time ≤ b.time := by
  rw [merge_hist]
  exact (foldl_sorted h).sublist (keepLast_sublist _ _)

theorem merge_fresh {tab : Tab} {samples : List Sample} (h : tab.Fresh samples)
    (hcap : tab.hist.length + samples.length ≤ histMax) :
    (tab.merge samples).hist.Perm (samples ++ tab.hist) := by
  have hperm := foldl_fresh h
  have hlen : (samples.foldl mergeSample tab).hist.length ≤ histMax := by
    rw [hperm.length_eq, List.length_append]
    omega
  have hkeep : (tab.merge samples).hist = (samples.foldl mergeSample tab).hist := by
    rw [merge_hist, keepLast_eq_rtake (show 0 < histMax by decide), List.rtake, Nat.sub_eq_zero_of_le hlen,
      List.drop_zero]
  rw [hkeep]
  exact hperm

end Tab

end Fountainer
