import Mathlib.Data.Nat.Count
import Mathlib.Data.List.Sort
import Mathlib.Order.Monotone.Basic
import Fountainer.Library.Run

/-!
# Views of runs

A view shows of every step of a run some steps of another machine. When these take related states to related
states, the state that the view of a run reaches is related to the state of the run.
-/

namespace Run

variable {σ τ ε δ : Type} {step : σ → ε → σ} {vstep : τ → δ → τ} {see : σ → ε → List δ}

/-- What a view shows of a run. -/
def view (step : σ → ε → σ) (see : σ → ε → List δ) : σ → List ε → List δ
  | _, [] => []
  | s, e :: es => see s e ++ view step see (step s e) es

/-- The unwinding rule. -/
theorem unwinding {R : σ → τ → Prop} (hstep : ∀ s v e, R s v → R (step s e) (run vstep v (see s e))) {s : σ} {v : τ}
    (h : R s v) (es : List ε) : R (run step s es) (run vstep v (view step see s es)) := by
  induction es generalizing s v with
  | nil => exact h
  | cons e es ih =>
      rw [run_cons, view, run_append]
      exact ih (hstep _ _ _ h)

theorem view_append (s : σ) (es fs : List ε) :
    view step see s (es ++ fs) = view step see s es ++ view step see (run step s es) fs := by
  induction es generalizing s with
  | nil => rfl
  | cons e es ih => rw [List.cons_append, view, ih, view, List.append_assoc, run_cons]

theorem exists_of_mem_view {s : σ} {es : List ε} {l : δ} (h : l ∈ view step see s es) :
    ∃ s' e, e ∈ es ∧ l ∈ see s' e := by
  induction es generalizing s with
  | nil => cases h
  | cons e es ih =>
      rcases List.mem_append.mp h with h | h
      · exact ⟨s, e, List.mem_cons_self, h⟩
      · obtain ⟨s', e', he', hl⟩ := ih h
        exact ⟨s', e', List.mem_cons_of_mem _ he', hl⟩

end Run

/-! ## Numberings -/

/-- The values of an increasing numbering are numbered by counting. -/
theorem Nat.count_of_strictMono {f : Nat → Nat} (hf : StrictMono f) {p : Nat → Prop} [DecidablePred p] {n : Nat}
    (hp : ∀ k, p k ↔ ∃ i < n, f i = k) {i : Nat} (hi : i < n) : Nat.count p (f i) = i := by
  have himage : (Finset.range (f i)).filter p = (Finset.range i).image f := by
    ext k
    simp only [Finset.mem_filter, Finset.mem_range, Finset.mem_image, hp]
    constructor
    · rintro ⟨hk, j, -, rfl⟩
      exact ⟨j, hf.lt_iff_lt.mp hk, rfl⟩
    · rintro ⟨j, hj, rfl⟩
      exact ⟨hf hj, j, Nat.lt_trans hj hi, rfl⟩
  rw [Nat.count_eq_card_filter_range, himage, Finset.card_image_of_injective _ hf.injective, Finset.card_range]

/-- An increasing numbering that goes on from `n` with the numbers from `m` on goes on from `m + 1` instead. -/
theorem StrictMono.shift {f : Nat → Nat} (hf : StrictMono f) {n m : Nat} (hn : ∀ k, f (n + k) = m + k) (l : Nat) :
    ∃ g : Nat → Nat, StrictMono g ∧ (∀ k, g (n + k) = m + l + k) ∧ ∀ i < n, g i = f i := by
  refine ⟨fun i => if i < n then f i else f i + l, ?_, fun k => ?_, fun i hi => ?_⟩
  · intro i j hij
    have hlt := hf hij
    by_cases hj : j < n
    · simpa [hj, hij.trans hj] using hlt
    · by_cases hi : i < n
      · simp only [hi, hj, if_true, if_false]
        omega
      · simp only [hi, hj, if_false]
        omega
  · have hnot : ¬ n + k < n := by omega
    simp only [hnot, if_false, hn]
    omega
  · simp [hi]

/-- The first number with a property, when an increasing numbering gives the numbers with it. -/
theorem List.find?_range_of_strictMono {f : Nat → Nat} (hf : StrictMono f) {n m : Nat} (hn : f n = m)
    {p q : Nat → Bool} (hp : ∀ k, p k = true ↔ ∃ i, q i = true ∧ f i = k) :
    (List.range m).find? p = ((List.range n).find? q).map f := by
  cases hq : (List.range n).find? q with
  | none =>
      rw [Option.map_none, List.find?_range_eq_none]
      intro k hk
      rw [Bool.not_eq_true', Bool.eq_false_iff]
      intro hpk
      obtain ⟨i, hqi, rfl⟩ := (hp k).mp hpk
      have hi : i < n := hf.lt_iff_lt.mp (hn ▸ hk)
      simpa [hqi] using List.find?_range_eq_none.mp hq i hi
  | some i =>
      obtain ⟨hqi, hi, hmin⟩ := List.find?_range_eq_some.mp hq
      rw [Option.map_some, List.find?_range_eq_some]
      refine ⟨(hp _).mpr ⟨i, hqi, rfl⟩, ?_, fun k hk => ?_⟩
      · rw [List.mem_range] at hi ⊢
        exact hn ▸ hf hi
      · rw [Bool.not_eq_true', Bool.eq_false_iff]
        intro hpk
        obtain ⟨i', hqi', rfl⟩ := (hp k).mp hpk
        simpa [hqi'] using hmin i' (hf.lt_iff_lt.mp hk)

/-- A list over the numbers with a value is one over an increasing numbering of them. -/
theorem List.filterMap_range_of_strictMono {α : Type} {f : Nat → Nat} (hf : StrictMono f) {n m : Nat} (hn : f n = m)
    {p : Nat → Option α} (hp : ∀ k, (p k).isSome = true → ∃ i < n, f i = k) :
    (List.range m).filterMap p = (List.range n).filterMap fun i => p (f i) := by
  have himage : ∀ k, k ∈ (List.range m).filter (fun k => (p k).isSome) ↔
      k ∈ ((List.range n).map f).filter (fun k => (p k).isSome) := by
    intro k
    simp only [List.mem_filter, List.mem_range, List.mem_map]
    refine and_congr_left fun hk => ⟨fun _ => hp k hk, ?_⟩
    rintro ⟨i, hi, rfl⟩
    exact hn ▸ hf hi
  have hsorted : ((List.range n).map f).Pairwise (· < ·) :=
    List.pairwise_map.mpr (List.pairwise_lt_range.imp fun hij => hf hij)
  have heq := (List.pairwise_lt_range.filter _).eq_of_mem_iff (hsorted.filter _) himage
  have hkept : ∀ l : List Nat, (l.filter fun k => (p k).isSome).filterMap p = l.filterMap p := by
    intro l
    rw [List.filterMap_filter]
    refine List.filterMap_congr fun k _ => ?_
    cases p k <;> rfl
  rw [← hkept, heq, hkept, List.filterMap_map]
  rfl
