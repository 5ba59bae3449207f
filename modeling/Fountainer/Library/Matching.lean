import Mathlib.Data.List.Forall2
import Mathlib.Logic.Relation
import Mathlib.Order.Basic

/-!
# Matching a list with a sublist of another

`List.SublistForall₂ R as bs` says that the entries of `as` are related, in order, to entries of `bs`: in two
lists with increasing keys, it is enough that every entry of the first is related to one with its own key.
-/

namespace Matching

variable {α β γ : Type} {R : α → β → Prop}

theorem exists_of_mem {as : List α} {bs : List β} (h : List.SublistForall₂ R as bs) {a : α} (ha : a ∈ as) :
    ∃ b ∈ bs, R a b := by
  induction h with
  | nil => cases ha
  | cons hab _ ih =>
      rcases List.mem_cons.mp ha with rfl | ha
      · exact ⟨_, List.mem_cons_self, hab⟩
      · obtain ⟨b, hb, hr⟩ := ih ha
        exact ⟨b, List.mem_cons_of_mem _ hb, hr⟩
  | cons_right _ ih =>
      obtain ⟨b, hb, hr⟩ := ih ha
      exact ⟨b, List.mem_cons_of_mem _ hb, hr⟩

/-! ## Composition -/

theorem comp {S : β → γ → Prop} {as : List α} {bs : List β} {cs : List γ} (h : List.SublistForall₂ R as bs)
    (h' : List.SublistForall₂ S bs cs) : List.SublistForall₂ (Relation.Comp R S) as cs := by
  induction h' generalizing as with
  | nil =>
      cases h
      exact .nil
  | cons hbc _ ih =>
      cases h with
      | nil => exact .nil
      | cons hab h => exact .cons ⟨_, hab, hbc⟩ (ih h)
      | cons_right h => exact .cons_right (ih h)
  | cons_right _ ih => exact .cons_right (ih h)

theorem mono_mem {S : α → β → Prop} {as : List α} {bs : List β} (hRS : ∀ a ∈ as, ∀ b ∈ bs, R a b → S a b)
    (h : List.SublistForall₂ R as bs) : List.SublistForall₂ S as bs := by
  induction h with
  | nil => exact .nil
  | cons hab _ ih =>
      refine .cons (hRS _ List.mem_cons_self _ List.mem_cons_self hab) (ih fun a ha b hb => ?_)
      exact hRS a (List.mem_cons_of_mem _ ha) b (List.mem_cons_of_mem _ hb)
  | cons_right _ ih => exact .cons_right (ih fun a ha b hb => hRS a ha b (List.mem_cons_of_mem _ hb))

theorem mono {S : α → β → Prop} (hRS : ∀ a b, R a b → S a b) {as : List α} {bs : List β}
    (h : List.SublistForall₂ R as bs) : List.SublistForall₂ S as bs :=
  mono_mem (fun a _ b _ => hRS a b) h

/-- Related entries pass two filters together. -/
theorem filter {p : α → Bool} {q : β → Bool} (hpq : ∀ a b, R a b → p a = q b) {as : List α} {bs : List β}
    (h : List.SublistForall₂ R as bs) : List.SublistForall₂ R (as.filter p) (bs.filter q) := by
  induction h with
  | nil => exact .nil
  | @cons a b _ _ hab _ ih =>
      rw [List.filter_cons, List.filter_cons, hpq a b hab]
      cases q b with
      | true => exact .cons hab ih
      | false => exact ih
  | @cons_right b _ _ _ ih =>
      rw [List.filter_cons]
      cases q b with
      | true => exact .cons_right ih
      | false => exact ih

/-! ## Growing lists -/

theorem append_right {as : List α} {bs : List β} (h : List.SublistForall₂ R as bs) (more : List β) :
    List.SublistForall₂ R as (bs ++ more) := by
  induction h with
  | nil => exact .nil
  | cons hab _ ih => exact .cons hab ih
  | cons_right _ ih => exact .cons_right ih

theorem append {as as' : List α} {bs bs' : List β} (h : List.SublistForall₂ R as bs)
    (h' : List.SublistForall₂ R as' bs') : List.SublistForall₂ R (as ++ as') (bs ++ bs') := by
  induction h with
  | @nil bs =>
      induction bs with
      | nil => exact h'
      | cons b bs ih => exact .cons_right ih
  | cons hab _ ih => exact .cons hab ih
  | cons_right _ ih => exact .cons_right ih

/-! ## Increasing keys -/

variable {κ : Type} [Preorder κ] {f : α → κ} {g : β → κ}

theorem sublistForall₂ {as : List α} {bs : List β} (has : as.Pairwise fun a a' => f a < f a')
    (hbs : bs.Pairwise fun b b' => g b < g b') (h : ∀ a ∈ as, ∃ b ∈ bs, R a b ∧ f a = g b) :
    List.SublistForall₂ R as bs := by
  induction bs generalizing as with
  | nil =>
      cases as with
      | nil => exact .nil
      | cons a as =>
          obtain ⟨b, hb, -⟩ := h a List.mem_cons_self
          cases hb
  | cons b bs ih =>
      cases as with
      | nil => exact .nil
      | cons a as =>
          obtain ⟨ha, has'⟩ := List.pairwise_cons.mp has
          obtain ⟨hb, hbs'⟩ := List.pairwise_cons.mp hbs
          -- an entry with a key above that of `b` has its match behind `b`
          have hbehind : ∀ a' ∈ a :: as, g b < f a' → ∃ b' ∈ bs, R a' b' ∧ f a' = g b' := by
            intro a' ha' hlt
            obtain ⟨b', hb', hr, hkey⟩ := h a' ha'
            rcases List.mem_cons.mp hb' with rfl | hb'
            · exact absurd hlt (hkey ▸ lt_irrefl _)
            · exact ⟨b', hb', hr, hkey⟩
          obtain ⟨b', hb', hr, hkey⟩ := h a List.mem_cons_self
          rcases List.mem_cons.mp hb' with rfl | hb'
          · refine .cons hr (ih has' hbs' fun a' ha' => ?_)
            exact hbehind a' (List.mem_cons_of_mem _ ha') (hkey ▸ ha a' ha')
          · have hlt : g b < f a := hkey ▸ hb b' hb'
            refine .cons_right (ih has hbs' fun a' ha' => hbehind a' ha' ?_)
            rcases List.mem_cons.mp ha' with rfl | ha'
            · exact hlt
            · exact hlt.trans (ha a' ha')

end Matching
