import Mathlib.Data.List.Basic
import Mathlib.Data.List.Forall2

/-!
# Texts that can be read in one way only

A printed item is followed by nothing or by a stop character. When items can be told apart in this
position, so can lists of items with separators between them and a closing character.
-/

namespace Reading

variable {α γ : Type} {stop : γ → Prop}

/-- Nothing follows, or a stop character. -/
def Ends (stop : γ → Prop) : List γ → Prop
  | [] => True
  | c :: _ => stop c

/-- Printed texts without a stop character are read up to the first one. -/
theorem append_inj {xs ys r r' : List γ} (hx : ∀ c ∈ xs, ¬ stop c) (hy : ∀ c ∈ ys, ¬ stop c)
    (hr : Ends stop r) (hr' : Ends stop r') (h : xs ++ r = ys ++ r') : xs = ys ∧ r = r' := by
  induction xs generalizing ys with
  | nil =>
      cases ys with
      | nil => exact ⟨rfl, h⟩
      | cons y ys =>
          simp only [List.nil_append, List.cons_append] at h
          subst h
          exact absurd hr (hy y List.mem_cons_self)
  | cons x xs ih =>
      cases ys with
      | nil =>
          simp only [List.nil_append, List.cons_append] at h
          subst h
          exact absurd hr' (hx x List.mem_cons_self)
      | cons y ys =>
          obtain ⟨rfl, htail⟩ := List.cons.inj h
          obtain ⟨rfl, hrest⟩ := ih (fun c hc => hx c (.tail _ hc)) (fun c hc => hy c (.tail _ hc)) htail
          exact ⟨rfl, hrest⟩

/-- Whatever follows, the text of `x` is read as the text of `y` only if they are related. -/
def Reads (stop : γ → Prop) (print : α → List γ) (rel : α → α → Prop) (x y : α) : Prop :=
  ∀ r r', Ends stop r → Ends stop r' → print x ++ r = print y ++ r' → rel x y ∧ r = r'

/-- What follows the first item of a list: the other items and the closing character. -/
def after (print : α → List γ) (sep close : γ) (r : List γ) : List α → List γ
  | [] => close :: r
  | x :: xs => sep :: (print x ++ after print sep close r xs)

theorem intercalate_after (print : α → List γ) (sep close : γ) (r : List γ) (x : α) (xs : List α) :
    [sep].intercalate ((x :: xs).map print) ++ close :: r = print x ++ after print sep close r xs := by
  induction xs generalizing x with
  | nil => simp [after]
  | cons y ys ih =>
      have htail := ih y
      simp only [List.map_cons] at htail ⊢
      rw [List.intercalate_cons_cons, List.append_assoc, List.append_assoc, htail]
      rfl

section

variable {print : α → List γ} {rel : α → α → Prop} {sep close : γ} (hsep : stop sep) (hclose : stop close)
  (hne : sep ≠ close)
include hsep hclose

theorem ends_after (r : List γ) (xs : List α) : Ends stop (after print sep close r xs) := by
  cases xs with
  | nil => exact hclose
  | cons x xs => exact hsep

include hne

theorem after_inj {xs ys : List α} {r r' : List γ} (hreads : ∀ x ∈ xs, ∀ y ∈ ys, Reads stop print rel x y)
    (h : after print sep close r xs = after print sep close r' ys) : List.Forall₂ rel xs ys ∧ r = r' := by
  induction xs generalizing ys with
  | nil =>
      cases ys with
      | nil => exact ⟨.nil, (List.cons.inj h).2⟩
      | cons y ys => exact absurd (List.cons.inj h).1.symm hne
  | cons x xs ih =>
      cases ys with
      | nil => exact absurd (List.cons.inj h).1 hne
      | cons y ys =>
          obtain ⟨hxy, hrest⟩ := hreads x List.mem_cons_self y List.mem_cons_self _ _
            (ends_after hsep hclose r xs) (ends_after hsep hclose r' ys) (List.cons.inj h).2
          obtain ⟨hall, hr⟩ := ih (fun x hx y hy => hreads x (.tail _ hx) y (.tail _ hy)) hrest
          exact ⟨.cons hxy hall, hr⟩

/-- A closed list of items is read in one way only. -/
theorem list_inj {xs ys : List α} {r r' : List γ} (hreads : ∀ x ∈ xs, ∀ y ∈ ys, Reads stop print rel x y)
    (hx : ∀ x ∈ xs, (print x).head? ≠ some close ∧ print x ≠ [])
    (hy : ∀ y ∈ ys, (print y).head? ≠ some close ∧ print y ≠ [])
    (h : [sep].intercalate (xs.map print) ++ close :: r = [sep].intercalate (ys.map print) ++ close :: r') :
    List.Forall₂ rel xs ys ∧ r = r' := by
  have hfirst : ∀ {z : α} {rest t : List γ}, (print z).head? ≠ some close ∧ print z ≠ [] →
      close :: t ≠ print z ++ rest := by
    intro z rest t hz heq
    cases hp : print z with
    | nil => exact hz.2 hp
    | cons c cs =>
        rw [hp] at heq
        exact hz.1 (by rw [hp, (List.cons.inj heq).1]; rfl)
  cases xs with
  | nil =>
      cases ys with
      | nil => exact ⟨.nil, (List.cons.inj h).2⟩
      | cons y ys =>
          rw [intercalate_after print sep close r' y ys] at h
          exact absurd h (hfirst (hy y List.mem_cons_self))
  | cons x xs =>
      rw [intercalate_after print sep close r x xs] at h
      cases ys with
      | nil => exact absurd h.symm (hfirst (hx x List.mem_cons_self))
      | cons y ys =>
          rw [intercalate_after print sep close r' y ys] at h
          obtain ⟨hxy, hrest⟩ := hreads x List.mem_cons_self y List.mem_cons_self _ _
            (ends_after hsep hclose r xs) (ends_after hsep hclose r' ys) h
          obtain ⟨hall, hr⟩ := after_inj hsep hclose hne
            (fun x hx y hy => hreads x (.tail _ hx) y (.tail _ hy)) hrest
          exact ⟨.cons hxy hall, hr⟩

end

end Reading
