import Mathlib.Data.Int.Cast.Basic
import Mathlib.Logic.Relation

/-!
# Runs of a step function

A run is the fold of a step function over a list of events. `Along ok` says that every step of a run
meets a condition on the state it starts from.
-/

namespace Run

variable {σ ε : Type} (step : σ → ε → σ)

def run (s : σ) (es : List ε) : σ := es.foldl step s

/-- Every step meets `ok` at the state before it. -/
def Along (ok : σ → ε → Prop) : σ → List ε → Prop
  | _, [] => True
  | s, e :: es => ok s e ∧ Along ok (step s e) es

/-- `Along` of a decidable condition is decided by running. -/
def decideAlong {ok : σ → ε → Prop} [∀ s e, Decidable (ok s e)] (s : σ) :
    (es : List ε) → Decidable (Along step ok s es)
  | [] => isTrue trivial
  | e :: es => @instDecidableAnd _ _ inferInstance (decideAlong (step s e) es)

instance {ok : σ → ε → Prop} [∀ s e, Decidable (ok s e)] (s : σ) (es : List ε) :
    Decidable (Along step ok s es) := decideAlong step s es

variable {step}

@[simp] theorem run_nil (s : σ) : run step s [] = s := rfl

@[simp] theorem run_cons (s : σ) (e : ε) (es : List ε) :
    run step s (e :: es) = run step (step s e) es := rfl

theorem run_append (s : σ) (es fs : List ε) :
    run step s (es ++ fs) = run step (run step s es) fs := List.foldl_append ..

theorem along_append {ok : σ → ε → Prop} {s : σ} {es fs : List ε} :
    Along step ok s (es ++ fs) ↔ Along step ok s es ∧ Along step ok (run step s es) fs := by
  induction es generalizing s with
  | nil => simp [Along]
  | cons e es ih => simp [Along, ih, and_assoc]

theorem Along.imp {ok ok' : σ → ε → Prop} (h : ∀ s e, ok s e → ok' s e) {s : σ} {es : List ε}
    (ha : Along step ok s es) : Along step ok' s es := by
  induction es generalizing s with
  | nil => trivial
  | cons e es ih => exact ⟨h _ _ ha.1, ih ha.2⟩

theorem Along.and {ok ok' : σ → ε → Prop} {s : σ} {es : List ε} (h : Along step ok s es)
    (h' : Along step ok' s es) : Along step (fun s e => ok s e ∧ ok' s e) s es := by
  induction es generalizing s with
  | nil => trivial
  | cons e es ih => exact ⟨⟨h.1, h'.1⟩, ih h.2 h'.2⟩

theorem along_of_forall {ok : σ → ε → Prop} (h : ∀ s e, ok s e) (s : σ) (es : List ε) :
    Along step ok s es := by
  induction es generalizing s with
  | nil => trivial
  | cons e es ih => exact ⟨h _ _, ih _⟩

theorem along_of_mem {ok : ε → Prop} {s : σ} {es : List ε} (h : ∀ e ∈ es, ok e) :
    Along step (fun _ e => ok e) s es := by
  induction es generalizing s with
  | nil => trivial
  | cons e es ih => exact ⟨h e List.mem_cons_self, ih fun e he => h e (List.mem_cons_of_mem _ he)⟩

/-- The invariant rule: what every allowed step keeps holds at the end of an allowed run. -/
theorem invariant {ok : σ → ε → Prop} {P : σ → Prop}
    (hstep : ∀ s e, P s → ok s e → P (step s e)) {s : σ} {es : List ε}
    (ha : Along step ok s es) (hs : P s) : P (run step s es) := by
  induction es generalizing s with
  | nil => exact hs
  | cons e es ih => exact ih ha.2 (hstep _ _ hs ha.1)

/-- What an invariant of all steps implies holds at every step. -/
theorem along_of_invariant {ok : σ → ε → Prop} {P : σ → Prop} (hstep : ∀ s e, P s → P (step s e))
    (hok : ∀ s e, P s → ok s e) {s : σ} (hs : P s) (es : List ε) : Along step ok s es := by
  induction es generalizing s with
  | nil => trivial
  | cons e es ih => exact ⟨hok s e hs, ih (hstep s e hs)⟩

/-- The ranking rule: a run is not longer than a rank that every allowed step lowers. -/
theorem length_le_rank {ok : σ → ε → Prop} {P : σ → Prop} {μ : σ → Int}
    (hstep : ∀ s e, P s → ok s e → P (step s e) ∧ μ (step s e) < μ s)
    (hpos : ∀ s, P s → 0 ≤ μ s) {s : σ} {es : List ε} (ha : Along step ok s es) (hs : P s) :
    (es.length : Int) ≤ μ s := by
  induction es generalizing s with
  | nil => exact hpos s hs
  | cons e es ih =>
      obtain ⟨hP, hlt⟩ := hstep s e hs ha.1
      have hrest := ih ha.2 hP
      rw [List.length_cons]
      push_cast
      exact Int.le_trans (Int.add_le_add_right hrest 1) hlt

/-- The invariant rule for a step that is a chain of smaller ones. -/
theorem star_invariant {R : σ → σ → Prop} {P : σ → Prop}
    (hR : ∀ a b, R a b → P a → P b) {a b : σ} (h : Relation.ReflTransGen R a b)
    (ha : P a) : P b := by
  induction h with
  | refl => exact ha
  | tail _ hbc ih => exact hR _ _ hbc ih

end Run
