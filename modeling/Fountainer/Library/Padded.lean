import Mathlib.Data.List.GetD
import Mathlib.Data.List.Lex
import Mathlib.Order.PiLex

/-!
# Lists compared after padding

Two lists that are padded to one length compare as the sequences that continue them without end.
This is a strict weak order, and the lexicographic order of the lists themselves agrees with it
where no entry is below the padding.
-/

namespace Padded

variable {α : Type} [LinearOrder α] (z : α)

def pad (n : Nat) (l : List α) : List α := l ++ List.replicate (n - l.length) z

/-- The comparison of two lists at the length of the longer one. -/
def lt (l m : List α) : Bool :=
  decide (pad z (max l.length m.length) l < pad z (max l.length m.length) m)

/-- The list, continued without end. -/
def value (l : List α) : Lex (ℕ → α) := toLex fun i => l.getD i z

variable {z} {l m : List α} {a b : α}

theorem value_lt_iff :
    value z l < value z m ↔ ∃ i, (∀ j < i, l.getD j z = m.getD j z) ∧ l.getD i z < m.getD i z :=
  Iff.rfl

theorem value_cons_lt :
    value z (a :: l) < value z (b :: m) ↔ a < b ∨ a = b ∧ value z l < value z m := by
  simp only [value_lt_iff]
  constructor
  · rintro ⟨i, heq, hlt⟩
    cases i with
    | zero => exact .inl hlt
    | succ i => exact .inr ⟨heq 0 (Nat.succ_pos i), i, fun j hj => heq (j + 1) (Nat.succ_lt_succ hj), hlt⟩
  · rintro (h | ⟨rfl, i, heq, hlt⟩)
    · exact ⟨0, fun j hj => absurd hj (Nat.not_lt_zero j), h⟩
    · refine ⟨i + 1, fun j hj => ?_, hlt⟩
      cases j with
      | zero => rfl
      | succ j => exact heq j (Nat.lt_of_succ_lt_succ hj)

omit [LinearOrder α] in
@[simp] theorem value_pad (n : Nat) : value z (pad z n l) = value z l := by
  apply congrArg toLex
  funext i
  simp only [pad, List.getD_eq_getElem?_getD]
  by_cases hi : i < l.length
  · rw [List.getElem?_append_left hi]
  · rw [List.getElem?_append_right (Nat.le_of_not_lt hi),
      List.getElem?_eq_none (Nat.le_of_not_lt hi), List.getElem?_replicate]
    split <;> rfl

omit [LinearOrder α] in
theorem length_pad {n : Nat} (h : l.length ≤ n) : (pad z n l).length = n := by
  simp [pad, h]

/-- At one length the lexicographic order is that of the sequences. -/
theorem lt_iff_value_lt (z : α) (h : l.length = m.length) : l < m ↔ value z l < value z m := by
  induction l generalizing m with
  | nil =>
      cases List.length_eq_zero_iff.mp h.symm
      exact iff_of_false (lt_irrefl _) (lt_irrefl _)
  | cons a l ih =>
      cases m with
      | nil => cases h
      | cons b m => rw [List.cons_lt_cons_iff, value_cons_lt, ih (Nat.succ.inj h)]

theorem lt_iff : lt z l m = true ↔ value z l < value z m := by
  rw [lt, decide_eq_true_iff, lt_iff_value_lt z, value_pad, value_pad]
  rw [length_pad (le_max_left ..), length_pad (le_max_right ..)]

theorem isStrictWeakOrder (z : α) :
    IsStrictWeakOrder (List α) fun l m => lt z l m = true := by
  have h : (fun l m : List α => lt z l m = true) = fun l m => value z l < value z m := by
    funext l m
    exact propext lt_iff
  have hseq : IsStrictWeakOrder (Lex (ℕ → α)) (· < ·) := isStrictWeakOrder_of_isOrderConnected
  rw [h]
  exact inferInstanceAs (IsStrictWeakOrder (List α) (Order.Preimage (value z) (· < ·)))

theorem not_value_lt_nil (h : ∀ x ∈ m, z ≤ x) : ¬value z m < value z [] := by
  rintro ⟨i, -, hlt⟩
  refine not_le_of_gt hlt ?_
  show z ≤ m.getD i z
  by_cases hi : i < m.length
  · rw [List.getD_eq_getElem _ _ hi]
    exact h _ (List.getElem_mem hi)
  · rw [List.getD_eq_default _ _ (Nat.le_of_not_lt hi)]

/-- What stands later without padding is not smaller with it. -/
theorem not_value_lt_of_le (hm : ∀ x ∈ m, z ≤ x) (h : l ≤ m) : ¬value z m < value z l := by
  induction l generalizing m with
  | nil => exact not_value_lt_nil hm
  | cons a l ih =>
      cases m with
      | nil => exact absurd h (not_le_of_gt (List.nil_lt_cons a l))
      | cons b m =>
          rw [value_cons_lt, not_or, not_and]
          rcases lt_or_eq_of_le h with hlt | heq
          · rcases List.cons_lt_cons_iff.mp hlt with hab | ⟨rfl, hlm⟩
            · exact ⟨not_lt_of_gt hab, fun hba => absurd hba (ne_of_gt hab)⟩
            · exact ⟨lt_irrefl a, fun _ => ih (fun x hx => hm x (.tail _ hx)) (le_of_lt hlm)⟩
          · cases heq
            exact ⟨lt_irrefl a, fun _ => lt_irrefl _⟩

end Padded
