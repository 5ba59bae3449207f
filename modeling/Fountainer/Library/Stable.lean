import Mathlib.Data.List.DropRight
import Mathlib.Order.Lattice

/-!
# Insertion by a key and stable sorting

Items are inserted one by one behind the last item whose key is not greater. After any number of
insertions the list is the stable sort of what has been inserted, also when only the last items are
kept each time.
-/

namespace Stable

variable {α ι : Type} [LinearOrder ι] (key : α → ι) (x : α)

/-- Behind the last item whose key is not greater. -/
def insertBehind : List α → List α
  | [] => [x]
  | y :: ys => if ∀ z ∈ y :: ys, key x < key z then x :: y :: ys else y :: insertBehind ys

/-- The stable sort by the key. -/
def sort (xs : List α) : List α := xs.mergeSort fun a b => decide (key a ≤ key b)

variable {key x} {xs : List α} {n : Nat}

@[simp] theorem length_insertBehind : (insertBehind key x xs).length = xs.length + 1 := by
  induction xs with
  | nil => rfl
  | cons y ys ih =>
      unfold insertBehind
      split
      · rfl
      · simp [ih]

theorem insertBehind_perm (key : α → ι) (x : α) (xs : List α) :
    (insertBehind key x xs).Perm (x :: xs) := by
  induction xs with
  | nil => exact .refl _
  | cons y ys ih =>
      unfold insertBehind
      split
      · exact .refl _
      · exact (ih.cons y).trans (.swap x y ys)

@[simp] theorem mem_insertBehind {z : α} : z ∈ insertBehind key x xs ↔ z = x ∨ z ∈ xs := by
  rw [(insertBehind_perm key x xs).mem_iff, List.mem_cons]

theorem insertBehind_of_lt (h : ∀ z ∈ xs, key x < key z) : insertBehind key x xs = x :: xs := by
  cases xs with
  | nil => rfl
  | cons y ys => exact if_pos h

/-- The backward scan over the items with a greater key finds that place. -/
theorem insertBehind_scan {p : α → Bool} (hp : ∀ z, p z = true ↔ key x < key z) (xs : List α) :
    xs.take (xs.length - (xs.reverse.takeWhile p).length) ++
      x :: xs.drop (xs.length - (xs.reverse.takeWhile p).length) = insertBehind key x xs := by
  induction xs with
  | nil => rfl
  | cons y ys ih =>
      rw [insertBehind, ← ih, List.reverse_cons]
      by_cases hys : ∀ z ∈ ys, key x < key z
      · have hall : ys.reverse.takeWhile p = ys.reverse :=
          List.takeWhile_eq_self_iff.mpr (by simpa [hp] using hys)
        rw [List.takeWhile_append_of_pos (by simpa [hp] using hys)]
        by_cases hy : key x < key y
        · rw [if_pos (by simpa using ⟨hy, hys⟩)]
          simp [(hp y).mpr hy]
        · rw [if_neg (by simp [hy]), hall]
          simp [mt (hp y).mp hy]
      · rw [if_neg (fun h => hys fun z hz => h z (.tail _ hz))]
        have hlen : (ys.reverse.takeWhile p).length ≤ ys.length := by
          simpa using (List.takeWhile_prefix (l := ys.reverse) p).length_le
        have hstop : (ys.reverse ++ [y]).takeWhile p = ys.reverse.takeWhile p := by
          rw [List.takeWhile_append, if_neg]
          intro h
          refine hys fun z hz => ?_
          have hself := (List.takeWhile_prefix (l := ys.reverse) p).eq_of_length h
          exact (hp z).mp (List.takeWhile_eq_self_iff.mp hself z (List.mem_reverse.mpr hz))
        rw [hstop, List.length_cons, Nat.succ_sub hlen]
        rfl

/-- An order that refines the keys is kept when it puts the new item behind those with an equal key. -/
theorem pairwise_insertBehind {r : α → α → Prop} (hkey : ∀ a b, r a b → key a ≤ key b)
    (hle : ∀ z ∈ xs, key z ≤ key x → r z x) (hlt : ∀ z ∈ xs, key x < key z → r x z)
    (h : xs.Pairwise r) : (insertBehind key x xs).Pairwise r := by
  induction xs with
  | nil => exact List.pairwise_singleton r x
  | cons y ys ih =>
      obtain ⟨hy, hys⟩ := List.pairwise_cons.mp h
      unfold insertBehind
      split
      · rename_i hall
        exact List.pairwise_cons.mpr ⟨fun z hz => hlt z hz (hall z hz), h⟩
      · rename_i hall
        have ih := ih (fun z hz => hle z (.tail _ hz)) (fun z hz => hlt z (.tail _ hz)) hys
        refine List.pairwise_cons.mpr ⟨fun z hz => ?_, ih⟩
        rcases mem_insertBehind.mp hz with rfl | hz
        · -- some item is not later, and `y` is not later than that one
          refine hle y List.mem_cons_self ?_
          by_contra hlt'
          refine hall fun w hw => ?_
          rcases List.mem_cons.mp hw with rfl | hw
          · exact lt_of_not_ge hlt'
          · exact lt_of_lt_of_le (lt_of_not_ge hlt') (hkey y w (hy w hw))
        · exact hy z hz

/-- Cutting before an insertion does not matter for the last items after it. -/
theorem rtake_insertBehind (key : α → ι) (x : α) (xs : List α) (n : Nat) :
    (insertBehind key x (xs.rtake n)).rtake n = (insertBehind key x xs).rtake n := by
  induction xs with
  | nil => simp
  | cons y ys ih =>
      by_cases hn : ys.length < n
      · have hcut : (y :: ys).rtake n = y :: ys := by
          rw [List.rtake, List.length_cons, Nat.sub_eq_zero_of_le hn, List.drop_zero]
        rw [hcut]
      · have hcut : (y :: ys).rtake n = ys.rtake n := by
          rw [List.rtake, List.rtake, List.length_cons, Nat.succ_sub (Nat.not_lt.mp hn),
            List.drop_succ_cons]
        rw [hcut, ih]
        by_cases hall : ∀ z ∈ y :: ys, key x < key z
        · rw [insertBehind_of_lt hall, insertBehind_of_lt fun z hz => hall z (.tail _ hz)]
          have hle := Nat.not_lt.mp hn
          simp only [List.rtake, List.length_cons]
          rw [Nat.succ_sub (Nat.le_succ_of_le hle), Nat.succ_sub hle]
          rfl
        · rw [insertBehind, if_neg hall, List.rtake, List.rtake, List.length_cons,
            Nat.succ_sub (by rw [length_insertBehind]; omega), List.drop_succ_cons]

/-! ## The stable sort -/

theorem sort_perm (key : α → ι) (xs : List α) : (sort key xs).Perm xs := List.mergeSort_perm ..

@[simp] theorem sort_nil : sort key [] = [] := List.mergeSort_nil

theorem sort_sorted (key : α → ι) (xs : List α) :
    (sort key xs).Pairwise fun a b => key a ≤ key b := by
  have h : (sort key xs).Pairwise fun a b => decide (key a ≤ key b) = true :=
    List.pairwise_mergeSort
      (fun a b c hab hbc => by simpa using le_trans (by simpa using hab) (by simpa using hbc))
      (fun a b => by simpa using le_total (key a) (key b)) xs
  simpa using h

theorem map_insertBehind {β : Type} (f : β → α) (b : β) (bs : List β) :
    (insertBehind (key ∘ f) b bs).map f = insertBehind key (f b) (bs.map f) := by
  induction bs with
  | nil => rfl
  | cons c cs ih =>
      simp only [insertBehind, List.map_cons, Function.comp, List.forall_mem_cons, List.forall_mem_map]
      split
      · rfl
      · rw [List.map_cons, ← ih]

/-- The keys, and the positions where they are equal. -/
abbrev byPosition (key : α → ι) (a b : α × Nat) : Bool :=
  List.zipIdxLE (fun a b => decide (key a ≤ key b)) a b

theorem byPosition_iff {a b : α × Nat} :
    byPosition key a b = true ↔ key a.1 < key b.1 ∨ key a.1 = key b.1 ∧ a.2 ≤ b.2 := by
  simp only [byPosition, List.zipIdxLE, decide_eq_true_eq]
  rcases lt_trichotomy (key a.1) (key b.1) with h | h | h
  · simp [h, le_of_lt h, not_le_of_gt h]
  · simp [h]
  · simp [not_lt_of_gt h, not_le_of_gt h, ne_of_gt h]

theorem sort_byPosition (key : α → ι) (xs : List (α × Nat)) :
    (xs.mergeSort (byPosition key)).Pairwise fun a b => byPosition key a b = true :=
  List.pairwise_mergeSort
    (List.zipIdxLE_trans fun a b c hab hbc => by
      simpa using le_trans (by simpa using hab) (by simpa using hbc))
    (List.zipIdxLE_total fun a b => by simpa using le_total (key a) (key b)) xs

theorem sort_concat (key : α → ι) (xs : List α) (x : α) :
    sort key (xs ++ [x]) = insertBehind key x (sort key xs) := by
  have hlt : ∀ z ∈ xs.zipIdx.mergeSort (byPosition key), z.2 < xs.length := fun z hz => by
    simpa using (List.mem_zipIdx (List.mem_mergeSort.mp hz)).2.1
  have hinsert : (insertBehind (key ∘ Prod.fst) (x, xs.length)
      (xs.zipIdx.mergeSort (byPosition key))).Pairwise fun a b => byPosition key a b = true := by
    refine pairwise_insertBehind (fun a b h => ?_) (fun z hz h => ?_) (fun z hz h => ?_)
      (sort_byPosition key _)
    · exact (byPosition_iff.mp h).elim le_of_lt fun h => le_of_eq h.1
    · exact byPosition_iff.mpr ((lt_or_eq_of_le h).imp_right fun h => ⟨h, le_of_lt (hlt z hz)⟩)
    · exact byPosition_iff.mpr (.inl h)
  have hperm : ((xs ++ [x]).zipIdx.mergeSort (byPosition key)).Perm
      (insertBehind (key ∘ Prod.fst) (x, xs.length) (xs.zipIdx.mergeSort (byPosition key))) := by
    refine (List.mergeSort_perm _ _).trans (.trans ?_ (insertBehind_perm _ _ _).symm)
    rw [List.zipIdx_append]
    refine List.perm_append_comm.trans ?_
    simpa using (List.mergeSort_perm xs.zipIdx _).symm
  have heq := List.Perm.eq_of_pairwise (fun a b ha hb hab hba => ?_) (sort_byPosition key _) hinsert hperm
  · rw [sort, ← List.mergeSort_zipIdx, heq, map_insertBehind, List.mergeSort_zipIdx]
    rfl
  · have ha' := List.mem_zipIdx_iff_getElem?.mp (List.mem_mergeSort.mp ha)
    have hb' := List.mem_zipIdx_iff_getElem?.mp (List.mem_mergeSort.mp (hperm.mem_iff.mpr hb))
    have hpos : a.2 = b.2 := by
      rcases byPosition_iff.mp hab with h | ⟨he, h⟩ <;> rcases byPosition_iff.mp hba with h' | ⟨he', h'⟩
      · exact absurd h (lt_asymm h')
      · exact absurd h (he' ▸ lt_irrefl _)
      · exact absurd h' (he ▸ lt_irrefl _)
      · exact Nat.le_antisymm h h'
    rw [hpos, hb'] at ha'
    exact Prod.ext (Option.some.inj ha').symm hpos

end Stable
