import Mathlib.Tactic.Common
import StackTyping.Catalog.Subtype

/-!
Equivalence of types.

Equivalent types are equal, or two arrays or two pointers over equivalent elements. So a question
about the kind of a type has one answer for all types that are equivalent to it, as long as it
does not look at the element.
-/

namespace StackTyping.Catalog

variable {cat : Catalog} {s t u x y : Ty}

lemma expand_array (h : cat.kind t = .array x) : cat.expand t = .array (cat.expand x) := by
  rw [expand]
  split
  · rename_i y hy
    rw [h] at hy
    cases hy
    rfl
  · rename_i y hy
    rw [h] at hy
    cases hy
  · rename_i hne _
    exact absurd h (hne x)

lemma expand_pointer (h : cat.kind t = .pointer x) : cat.expand t = .pointer (cat.expand x) := by
  rw [expand]
  split
  · rename_i y hy
    rw [h] at hy
    cases hy
  · rename_i y hy
    rw [h] at hy
    cases hy
    rfl
  · rename_i hne
    exact absurd h (hne x)

lemma expand_plain (h : cat.element? t = none) : cat.expand t = t := by
  rw [expand]
  split
  · rename_i y hy
    rw [element?, hy] at h
    cases h
  · rename_i y hy
    rw [element?, hy] at h
    cases h
  · rfl

/-- A type is an array, a pointer or an entry without elements. -/
lemma kind_cases (cat : Catalog) (t : Ty) :
    (∃ x, cat.kind t = .array x) ∨ (∃ x, cat.kind t = .pointer x) ∨
      (cat.element? t = none ∧ ∃ i, t = .entry i) := by
  cases hk : cat.kind t with
  | array x => exact Or.inl ⟨x, rfl⟩
  | pointer x => exact Or.inr (Or.inl ⟨x, rfl⟩)
  | _ =>
    refine Or.inr (Or.inr ⟨by rw [element?, hk]; rfl, ?_⟩)
    cases t with
    | entry i => exact ⟨i, rfl⟩
    | array x => cases hk
    | pointer x => cases hk

/-! ### Equivalence -/

lemma equiv_iff : cat.equiv s t ↔ cat.expand s = cat.expand t := by
  simp [equiv]

@[simp] lemma equiv_refl (t : Ty) : cat.equiv t t := equiv_iff.2 rfl

lemma equiv_symm (h : cat.equiv s t) : cat.equiv t s := equiv_iff.2 (equiv_iff.1 h).symm

lemma equiv_trans (h : cat.equiv s t) (h' : cat.equiv t u) : cat.equiv s u :=
  equiv_iff.2 ((equiv_iff.1 h).trans (equiv_iff.1 h'))

lemma equiv_array_iff (hs : cat.kind s = .array x) (ht : cat.kind t = .array y) :
    cat.equiv s t ↔ cat.equiv x y := by
  rw [equiv_iff, equiv_iff, expand_array hs, expand_array ht, Ty.array.injEq]

lemma equiv_pointer_iff (hs : cat.kind s = .pointer x) (ht : cat.kind t = .pointer y) :
    cat.equiv s t ↔ cat.equiv x y := by
  rw [equiv_iff, equiv_iff, expand_pointer hs, expand_pointer ht, Ty.pointer.injEq]

/-- **Equivalent types** are equal, or built in the same way over equivalent types. -/
lemma equiv_cases (h : cat.equiv s t) :
    s = t ∨ (∃ x y, cat.kind s = .array x ∧ cat.kind t = .array y ∧ cat.equiv x y) ∨
      ∃ x y, cat.kind s = .pointer x ∧ cat.kind t = .pointer y ∧ cat.equiv x y := by
  have he := equiv_iff.1 h
  rcases kind_cases cat s with ⟨x, hs⟩ | ⟨x, hs⟩ | ⟨hs, i, rfl⟩ <;>
    rcases kind_cases cat t with ⟨y, ht⟩ | ⟨y, ht⟩ | ⟨ht, j, rfl⟩
  · rw [expand_array hs, expand_array ht, Ty.array.injEq] at he
    exact Or.inr (Or.inl ⟨x, y, hs, ht, equiv_iff.2 he⟩)
  · rw [expand_array hs, expand_pointer ht] at he; cases he
  · rw [expand_array hs, expand_plain ht] at he; cases he
  · rw [expand_pointer hs, expand_array ht] at he; cases he
  · rw [expand_pointer hs, expand_pointer ht, Ty.pointer.injEq] at he
    exact Or.inr (Or.inr ⟨x, y, hs, ht, equiv_iff.2 he⟩)
  · rw [expand_pointer hs, expand_plain ht] at he; cases he
  · rw [expand_plain hs, expand_array ht] at he; cases he
  · rw [expand_plain hs, expand_pointer ht] at he; cases he
  · rw [expand_plain hs, expand_plain ht] at he
    exact Or.inl he

lemma eq_of_equiv (h : cat.equiv s t) (ht : cat.element? t = none) : s = t := by
  rcases equiv_cases h with h | ⟨x, y, -, hk, -⟩ | ⟨x, y, -, hk, -⟩
  · exact h
  · rw [element?, hk] at ht
    cases ht
  · rw [element?, hk] at ht
    cases ht

/-- What does not look at the element of an array or pointer is the same for equivalent types. -/
lemma kind_congr {β : Type} (f : Kind Ty → β) (harray : ∀ x y, f (.array x) = f (.array y))
    (hpointer : ∀ x y, f (.pointer x) = f (.pointer y)) (h : cat.equiv s t) :
    f (cat.kind s) = f (cat.kind t) := by
  rcases equiv_cases h with rfl | ⟨x, y, hs, ht, -⟩ | ⟨x, y, hs, ht, -⟩
  · rfl
  · rw [hs, ht]; exact harray x y
  · rw [hs, ht]; exact hpointer x y

lemma isBoxable_congr (h : cat.equiv s t) : cat.isBoxable s = cat.isBoxable t :=
  kind_congr Kind.isBoxable (fun _ _ => rfl) (fun _ _ => rfl) h

lemma isArray_congr (h : cat.equiv s t) : cat.isArray s = cat.isArray t :=
  kind_congr Kind.isArray (fun _ _ => rfl) (fun _ _ => rfl) h

lemma isPointer_congr (h : cat.equiv s t) : cat.isPointer s = cat.isPointer t :=
  kind_congr Kind.isPointer (fun _ _ => rfl) (fun _ _ => rfl) h

lemma isVoid_congr (h : cat.equiv s t) : cat.isVoid s = cat.isVoid t :=
  kind_congr Kind.isVoid (fun _ _ => rfl) (fun _ _ => rfl) h

lemma isExact_congr (h : cat.equiv s t) : cat.isExact s = cat.isExact t := by
  rw [isExact, isExact, isPointer_congr h, isVoid_congr h]

lemma isReferenceElement_congr (h : cat.equiv s t) :
    cat.isReferenceElement s = cat.isReferenceElement t := by
  rw [isReferenceElement, isReferenceElement, isBoxable_congr h, isExact_congr h]

end StackTyping.Catalog
