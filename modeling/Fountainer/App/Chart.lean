import Fountainer.App.Shadow
import Fountainer.Library.Stable

/-!
# The chart ring (`_hist_add`)

The calls of `_hist_add` on one device, the samples they insert and the list that remains of them.
-/

namespace Fountainer

/-- The arguments of a call of `_hist_add`. -/
structure HistCall where
  t : Int
  p : Json
  r : Json
  seq : Option Int := none

/-- The sample that the call inserts as number `i`. -/
def HistCall.sample (c : HistCall) (i : Nat) : Sample := { i, t := c.t, p := c.p, r := c.r, seq := c.seq }

def Shadow.add (lim : Limits) (st : Shadow) (c : HistCall) : Shadow := st.histAdd lim c.t c.p c.r c.seq

def Shadow.addAll (lim : Limits) (st : Shadow) (calls : List HistCall) : Shadow :=
  calls.foldl (Shadow.add lim) st

/-- Everything that the calls insert, numbered from 1 on in call order. -/
def inserted (calls : List HistCall) : List Sample := (calls.zipIdx 1).map fun e => e.1.sample e.2

/-- The order of the chart: by time, then by number. -/
def Sample.Older (x y : Sample) : Prop := x.t < y.t ∨ x.t = y.t ∧ x.i < y.i

theorem Sample.Older.le {x y : Sample} (h : x.Older y) : x.t ≤ y.t :=
  h.elim Int.le_of_lt fun h => Int.le_of_eq h.1

/-! ## One call -/

/-- The backward scan finds the place behind the last sample that is not later. -/
theorem insertSample_eq (s : Sample) (hist : List Sample) :
    Shadow.insertSample s hist = Stable.insertBehind Sample.t s hist :=
  Stable.insertBehind_scan (fun _ => decide_eq_true_iff) hist

theorem keepLast_eq_rtake {α : Type} {n : Nat} (hn : 0 < n) (xs : List α) :
    keepLast n xs = xs.rtake n := if_neg (Nat.ne_of_gt hn)

theorem mem_of_mem_keepLast {α : Type} {n : Nat} {xs : List α} {x : α} (h : x ∈ keepLast n xs) :
    x ∈ xs := by
  unfold keepLast at h
  split at h
  · exact h
  · exact List.mem_of_mem_drop h

theorem keepLast_sublist {α : Type} (n : Nat) (xs : List α) : (keepLast n xs).Sublist xs := by
  unfold keepLast
  split
  · exact List.Sublist.refl _
  · exact List.drop_sublist _ _

theorem keepLast_concat {α : Type} (n : Nat) (xs : List α) (x : α) :
    keepLast n (keepLast n xs ++ [x]) = keepLast n (xs ++ [x]) := by
  unfold keepLast
  split
  · rfl
  · simp only [List.length_append, List.length_drop, List.length_singleton]
    rw [List.drop_append, List.drop_append, List.drop_drop, List.length_drop]
    congr 2 <;> omega

/-- Cutting before the insertion does not matter. -/
theorem keepLast_insert (n : Nat) (s : Sample) (xs : List Sample) :
    keepLast n (Shadow.insertSample s (keepLast n xs)) = keepLast n (Shadow.insertSample s xs) := by
  rw [insertSample_eq, insertSample_eq]
  rcases Nat.eq_zero_or_pos n with rfl | hn
  · rfl
  · rw [keepLast_eq_rtake hn, keepLast_eq_rtake hn, keepLast_eq_rtake hn, Stable.rtake_insertBehind]

@[simp] theorem Shadow.add_histI (lim : Limits) (st : Shadow) (c : HistCall) :
    (st.add lim c).histI = st.histI + 1 := rfl

theorem Shadow.add_hist (lim : Limits) (st : Shadow) (c : HistCall) :
    (st.add lim c).hist =
      keepLast lim.histMaxSamples (Shadow.insertSample (c.sample (st.histI + 1)) st.hist) := rfl

theorem Shadow.mem_add {lim : Limits} {st : Shadow} {c : HistCall} {x : Sample}
    (h : x ∈ (st.add lim c).hist) : x = c.sample (st.histI + 1) ∨ x ∈ st.hist := by
  rw [add_hist] at h
  have h := mem_of_mem_keepLast h
  rw [insertSample_eq] at h
  exact Stable.mem_insertBehind.mp h

/-! ## All calls -/

theorem inserted_concat (calls : List HistCall) (c : HistCall) :
    inserted (calls ++ [c]) = inserted calls ++ [c.sample (calls.length + 1)] := by
  simp [inserted, List.zipIdx_append, Nat.add_comm]

theorem inserted_numbers (calls : List HistCall) :
    (inserted calls).map Sample.i = List.range' 1 calls.length := by
  induction calls using List.reverseRecOn with
  | nil => rfl
  | append_singleton calls c ih =>
      rw [inserted_concat, List.map_append, ih, List.length_append, List.length_singleton,
        List.range'_concat]
      simp [HistCall.sample, Nat.add_comm]

theorem inserted_number_le {calls : List HistCall} {x : Sample} (h : x ∈ inserted calls) :
    x.i ≤ calls.length := by
  have hx := List.mem_map_of_mem (f := Sample.i) h
  rw [inserted_numbers, List.mem_range'_1] at hx
  omega

theorem addAll_concat (lim : Limits) (st : Shadow) (calls : List HistCall) (c : HistCall) :
    st.addAll lim (calls ++ [c]) = (st.addAll lim calls).add lim c := by
  simp [Shadow.addAll]

theorem addAll_histI (lim : Limits) (st : Shadow) (calls : List HistCall) :
    (st.addAll lim calls).histI = st.histI + calls.length := by
  induction calls using List.reverseRecOn with
  | nil => rfl
  | append_singleton calls c ih =>
      rw [addAll_concat, Shadow.add_histI, ih, List.length_append, List.length_singleton, Nat.add_assoc]

theorem addAll_with (lim : Limits) (st : Shadow) (boot : Option Int) (seq : Int) (events : List Event)
    (calls : List HistCall) :
    Shadow.addAll lim { st with histBoot := boot, histSeq := seq, events } calls =
      { st.addAll lim calls with histBoot := boot, histSeq := seq, events } := by
  induction calls generalizing st with
  | nil => rfl
  | cons c calls ih => exact ih (st.add lim c)

theorem addAll_eq (lim : Limits) (st : Shadow) (calls : List HistCall) :
    st.addAll lim calls =
      { st with hist := (st.addAll lim calls).hist, histI := (st.addAll lim calls).histI } := by
  induction calls generalizing st with
  | nil => rfl
  | cons c calls ih =>
      have h := ih (st.add lim c)
      rw [Shadow.addAll, List.foldl_cons]
      exact h

theorem addAll_congr (lim : Limits) {st st' : Shadow} (hhist : st.hist = st'.hist)
    (hi : st.histI = st'.histI) (calls : List HistCall) :
    (st.addAll lim calls).hist = (st'.addAll lim calls).hist := by
  induction calls using List.reverseRecOn with
  | nil => exact hhist
  | append_singleton calls c ih =>
      rw [addAll_concat, addAll_concat, Shadow.add_hist, Shadow.add_hist, ih, addAll_histI, addAll_histI, hi]

theorem addAll_append (lim : Limits) (st : Shadow) (calls calls' : List HistCall) :
    st.addAll lim (calls ++ calls') = (st.addAll lim calls).addAll lim calls' := List.foldl_append ..

/-- Without cutting, everything that the calls insert is there. -/
theorem addAll_uncut {lim : Limits} (hlim : lim.histMaxSamples = 0) (st : Shadow) (calls : List HistCall) :
    (st.addAll lim calls).hist.Perm
      (st.hist ++ (calls.zipIdx (st.histI + 1)).map fun c => c.1.sample c.2) := by
  induction calls using List.reverseRecOn with
  | nil => simp [Shadow.addAll]
  | append_singleton calls c ih =>
      rw [addAll_concat, Shadow.add_hist, hlim, keepLast, if_pos rfl, insertSample_eq, addAll_histI,
        List.zipIdx_append, List.map_append, ← List.append_assoc]
      refine (Stable.insertBehind_perm _ _ _).trans ((ih.cons _).trans ?_)
      have hnum : st.histI + 1 + calls.length = st.histI + calls.length + 1 := by omega
      rw [hnum]
      exact (List.perm_append_singleton _ _).symm

/-! ## The numbers -/

/-- The numbers in the chart are among those given out, each at most once. -/
structure Shadow.Numbered (st : Shadow) : Prop where
  range : ∀ x ∈ st.hist, 0 < x.i ∧ x.i ≤ st.histI
  nodup : (st.hist.map Sample.i).Nodup

theorem Shadow.Numbered.empty : Shadow.Numbered {} := ⟨by simp, List.nodup_nil⟩

theorem Shadow.Numbered.congr {st st' : Shadow} (h : st.Numbered) (hhist : st'.hist = st.hist)
    (hi : st'.histI = st.histI) : st'.Numbered := by
  constructor
  · rw [hhist, hi]
    exact h.range
  · rw [hhist]
    exact h.nodup

theorem Shadow.Numbered.add {st : Shadow} (h : st.Numbered) (lim : Limits) (c : HistCall) :
    (st.add lim c).Numbered := by
  constructor
  · intro x hx
    rw [Shadow.add_histI]
    rcases Shadow.mem_add hx with rfl | hx
    · exact ⟨Nat.succ_pos _, Nat.le_refl _⟩
    · exact ⟨(h.range x hx).1, Nat.le_succ_of_le (h.range x hx).2⟩
  · rw [Shadow.add_hist, insertSample_eq]
    have hnew : st.histI + 1 ∉ st.hist.map Sample.i := by
      intro hmem
      obtain ⟨x, hx, he⟩ := List.mem_map.mp hmem
      exact absurd (he ▸ (h.range x hx).2) (Nat.not_succ_le_self _)
    refine ((keepLast_sublist _ _).map Sample.i).nodup ?_
    rw [((Stable.insertBehind_perm _ _ _).map Sample.i).nodup_iff]
    exact List.nodup_cons.mpr ⟨hnew, h.nodup⟩

theorem Shadow.Numbered.addAll {st : Shadow} (h : st.Numbered) (lim : Limits) (calls : List HistCall) :
    (st.addAll lim calls).Numbered := by
  induction calls using List.reverseRecOn with
  | nil => exact h
  | append_singleton calls c ih =>
      rw [addAll_concat]
      exact ih.add lim c

theorem mem_addAll {lim : Limits} {st : Shadow} {calls : List HistCall} {x : Sample}
    (h : x ∈ (st.addAll lim calls).hist) : x ∈ st.hist ∨ st.histI < x.i := by
  induction calls using List.reverseRecOn with
  | nil => exact .inl h
  | append_singleton calls c ih =>
      rw [addAll_concat] at h
      rcases Shadow.mem_add h with rfl | h
      · right
        rw [addAll_histI]
        exact Nat.lt_succ_of_le (Nat.le_add_right _ _)
      · exact ih h

/-- The chart of `st'` is that of `st` after some calls. -/
def Shadow.ChartGrows (lim : Limits) (st st' : Shadow) : Prop :=
  ∃ calls, st'.hist = (st.addAll lim calls).hist ∧ st'.histI = (st.addAll lim calls).histI

namespace Shadow.ChartGrows

variable {lim : Limits} {a b c : Shadow}

theorem of_eq (hhist : b.hist = a.hist) (hi : b.histI = a.histI) : ChartGrows lim a b := ⟨[], hhist, hi⟩

theorem refl (a : Shadow) : ChartGrows lim a a := of_eq rfl rfl

theorem trans (h : ChartGrows lim a b) (h' : ChartGrows lim b c) : ChartGrows lim a c := by
  obtain ⟨calls, hhist, hi⟩ := h
  obtain ⟨calls', hhist', hi'⟩ := h'
  refine ⟨calls ++ calls', ?_, ?_⟩
  · rw [hhist', addAll_append, addAll_congr lim hhist hi]
  · rw [hi', addAll_append, addAll_histI, addAll_histI, hi]

theorem numbered (h : ChartGrows lim a b) (ha : a.Numbered) : b.Numbered := by
  obtain ⟨calls, hhist, hi⟩ := h
  exact (ha.addAll lim calls).congr hhist hi

theorem histI_le (h : ChartGrows lim a b) : a.histI ≤ b.histI := by
  obtain ⟨calls, -, hi⟩ := h
  rw [hi, addAll_histI]
  exact Nat.le_add_right _ _

theorem mem (h : ChartGrows lim a b) {x : Sample} (hx : x ∈ b.hist) : x ∈ a.hist ∨ a.histI < x.i := by
  obtain ⟨calls, hhist, -⟩ := h
  exact mem_addAll (hhist ▸ hx)

end Shadow.ChartGrows

/-! ## The whole run of calls -/

/-- Step by step insertion with cutting is one sort and one cut. -/
theorem addAll_hist (lim : Limits) (calls : List HistCall) :
    (Shadow.addAll lim {} calls).hist =
      keepLast lim.histMaxSamples (Stable.sort Sample.t (inserted calls)) := by
  induction calls using List.reverseRecOn with
  | nil => simp [Shadow.addAll, inserted, keepLast]
  | append_singleton calls c ih =>
      rw [addAll_concat, Shadow.add_hist, ih, keepLast_insert, addAll_histI, inserted_concat,
        Stable.sort_concat, insertSample_eq]
      simp

theorem sort_inserted_older (calls : List HistCall) :
    (Stable.sort Sample.t (inserted calls)).Pairwise Sample.Older := by
  induction calls using List.reverseRecOn with
  | nil => simp [inserted]
  | append_singleton calls c ih =>
      rw [inserted_concat, Stable.sort_concat]
      refine Stable.pairwise_insertBehind (fun _ _ h => h.le) (fun z hz hle => ?_) (fun z hz hlt => .inl hlt) ih
      have hz := inserted_number_le ((Stable.sort_perm _ _).mem_iff.mp hz)
      rcases Int.lt_or_eq_of_le hle with hlt | heq
      · exact .inl hlt
      · exact .inr ⟨heq, Nat.lt_succ_of_le hz⟩

end Fountainer
