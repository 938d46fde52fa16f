import Mathlib.Data.List.Forall2
import Mathlib.Data.Option.Basic

/-!
Lists and optional values that are related place by place, and what is then related about them.
-/

namespace StackTyping

lemma rel_map {α α' β β' : Type} {R : α → β → Prop} {S : α' → β' → Prop} {f : α → α'} {g : β → β'}
    {a? : Option α} {b? : Option β} (h : Option.Rel R a? b?)
    (hfg : ∀ a b, R a b → S (f a) (g b)) : Option.Rel S (a?.map f) (b?.map g) := by
  cases h with
  | none => exact .none
  | some hab => exact .some (hfg _ _ hab)

lemma any_eq_of_rel {α β : Type} {R : α → β → Prop} {p : α → Bool} {q : β → Bool} {a? : Option α}
    {b? : Option β} (h : Option.Rel R a? b?) (hpq : ∀ a b, R a b → p a = q b) :
    a?.any p = b?.any q := by
  cases h with
  | none => rfl
  | some hab => exact hpq _ _ hab

lemma isNone_eq_of_rel {α β : Type} {R : α → β → Prop} {a? : Option α} {b? : Option β}
    (h : Option.Rel R a? b?) : a?.isNone = b?.isNone := by
  cases h <;> rfl

lemma getElem?_rel {α β : Type} {R : α → β → Prop} {l : List α} {m : List β}
    (h : List.Forall₂ R l m) (i : Nat) : Option.Rel R l[i]? m[i]? := by
  induction h generalizing i with
  | nil => exact .none
  | cons hab _ ih =>
    cases i with
    | zero => exact .some hab
    | succ i => exact ih i

lemma getLast?_rel {α β : Type} {R : α → β → Prop} {l : List α} {m : List β}
    (h : List.Forall₂ R l m) : Option.Rel R l.getLast? m.getLast? := by
  rw [List.getLast?_eq_getElem?, List.getLast?_eq_getElem?, h.length_eq]
  exact getElem?_rel h _

lemma flatMap_eq {α β γ : Type} {R : α → β → Prop} {f : α → List γ} {g : β → List γ} {l : List α}
    {m : List β} (h : List.Forall₂ R l m) (hfg : ∀ a b, R a b → f a = g b) :
    l.flatMap f = m.flatMap g := by
  induction h with
  | nil => rfl
  | cons hab _ ih => rw [List.flatMap_cons, List.flatMap_cons, hfg _ _ hab, ih]

lemma isEmpty_eq {α β : Type} {R : α → β → Prop} {l : List α} {m : List β}
    (h : List.Forall₂ R l m) : l.isEmpty = m.isEmpty := by
  cases h <;> rfl

end StackTyping
