import StackTyping.Proofs.Catalog.Correspondence
import StackTyping.Proofs.Catalog.Naming
import StackTyping.Proofs.Catalog.Subtype

/-!
Equivalent types are interchangeable.

Arrays and pointers are built afresh whenever they are needed, so one type may stand in a catalog
many times. In a grown catalog these copies have no name, no interfaces and no base of their own
choosing. So every question about a type has the same answer for an equivalent one: its text, its
interfaces, what it is a subtype of, and what it shares with another type.
-/

namespace StackTyping.Catalog

variable {cat : Catalog} {s s' t t' x y : Ty}

lemma equiv_pointer (h : cat.equiv s t) : cat.equiv (.pointer s) (.pointer t) :=
  (equiv_pointer_iff rfl rfl).2 h

lemma equiv_array (h : cat.equiv s t) : cat.equiv (.array s) (.array t) :=
  (equiv_array_iff rfl rfl).2 h

lemma equiv_congr (hs : cat.equiv s s') (ht : cat.equiv t t') :
    cat.equiv s t = cat.equiv s' t' := by
  rw [equiv, equiv, equiv_iff.1 hs, equiv_iff.1 ht]

lemma isSome_of_array (h : cat.kind t = .array x) : (cat.element? t).isSome := by
  rw [element?, h]
  rfl

lemma isSome_of_pointer (h : cat.kind t = .pointer x) : (cat.element? t).isSome := by
  rw [element?, h]
  rfl

lemma eq_or_isSome_of_equiv (h : cat.equiv s t) :
    s = t ∨ (cat.element? s).isSome ∧ (cat.element? t).isSome := by
  rcases equiv_cases h with hst | ⟨x, y, hs, ht, -⟩ | ⟨x, y, hs, ht, -⟩
  · exact Or.inl hst
  · exact Or.inr ⟨isSome_of_array hs, isSome_of_array ht⟩
  · exact Or.inr ⟨isSome_of_pointer hs, isSome_of_pointer ht⟩

/-- Arrays and pointers only have the interfaces of their base types. -/
lemma interfaces_of_isSome (h : (cat.element? t).isSome) : cat.interfaces t =
    cat.implements.visit [] ((cat.baseChain t).reverse.flatMap cat.declaredInterfaces) := by
  unfold interfaces
  cases t with
  | entry i =>
    have hint : cat.isInterface (.entry i) = false := by
      unfold isInterface
      unfold element? at h
      cases hk : cat.kind (.entry i) with
      | interface =>
        rw [hk] at h
        cases h
      | _ => rfl
    simp only [hint, Bool.false_eq_true, if_false]
  | array _ => rfl
  | pointer _ => rfl

namespace NamedPlain

variable (h : NamedPlain cat)
include h

lemma ownName?_eq_none (he : (cat.element? t).isSome) : cat.ownName? t = none := by
  cases hname : cat.ownName? t with
  | none => rfl
  | some name =>
    rw [h t (by rw [hname]; rfl)] at he
    cases he

/-- The text of an array or pointer is made from that of its element. -/
lemma nameOf_congr {s t : Ty} (hst : cat.equiv s t) : cat.nameOf s = cat.nameOf t := by
  rcases equiv_cases hst with rfl | ⟨x, y, hs, ht, hxy⟩ | ⟨x, y, hs, ht, hxy⟩
  · rfl
  · rw [nameOf_array (h.ownName?_eq_none (isSome_of_array hs)) hs,
      nameOf_array (h.ownName?_eq_none (isSome_of_array ht)) ht, nameOf_congr hxy]
  · rw [nameOf_pointer (h.ownName?_eq_none (isSome_of_pointer hs)) hs,
      nameOf_pointer (h.ownName?_eq_none (isSome_of_pointer ht)) ht, nameOf_congr hxy]
termination_by s.rank
decreasing_by
  · exact rank_array_lt hs
  · exact rank_pointer_lt hs

end NamedPlain

namespace Lawful

variable (h : Lawful cat)
include h

lemma nameOf_congr (hst : cat.equiv s t) : cat.nameOf s = cat.nameOf t :=
  NamedPlain.nameOf_congr h.named_plain hst

/-! ### Base types and interfaces -/

lemma baseChain_congr (hst : cat.equiv s t) :
    List.Forall₂ (fun a b => cat.equiv a b) (cat.baseChain s) (cat.baseChain t) := by
  have hrefl : ∀ l : List Ty, List.Forall₂ (fun a b => cat.equiv a b) l l :=
    fun l => List.forall₂_same.2 fun a _ => equiv_refl a
  rcases equiv_cases hst with rfl | ⟨x, y, hs, ht, -⟩ | ⟨x, y, hs, ht, -⟩
  · exact hrefl _
  · rw [baseChain_of_some (h.base?_array hs), baseChain_of_some (h.base?_array ht)]
    exact List.rel_append (hrefl _) (.cons hst .nil)
  · rw [baseChain_of_none (h.base?_pointer hs), baseChain_of_none (h.base?_pointer ht)]
    exact .cons hst .nil

lemma declaredInterfaces_congr (hst : cat.equiv s t) :
    cat.declaredInterfaces s = cat.declaredInterfaces t := by
  rcases eq_or_isSome_of_equiv hst with rfl | ⟨hs, ht⟩
  · rfl
  · rw [h.declaredInterfaces_eq_nil hs, h.declaredInterfaces_eq_nil ht]

lemma interfaces_congr (hst : cat.equiv s t) : cat.interfaces s = cat.interfaces t := by
  rcases eq_or_isSome_of_equiv hst with rfl | ⟨hs, ht⟩
  · rfl
  · have hchain := List.forall₂_reverse_iff.2 (h.baseChain_congr hst)
    rw [interfaces_of_isSome hs, interfaces_of_isSome ht,
      flatMap_eq hchain fun _ _ => h.declaredInterfaces_congr]

lemma isTop_congr (hst : cat.equiv s t) : cat.isTop s = cat.isTop t := by
  have hobj : cat.element? .object = none := by rw [element?, h.kind_object]; rfl
  rw [Bool.eq_iff_iff, h.isTop_iff, h.isTop_iff]
  constructor
  · rintro rfl
    exact eq_of_equiv (equiv_symm hst) hobj
  · rintro rfl
    exact eq_of_equiv hst hobj

/-! ### Subtyping -/

lemma subtype_of_equiv_left {s t u : Ty} (hst : cat.equiv s t) (htu : cat.subtype t u) :
    cat.subtype s u := by
  rcases equiv_cases hst with rfl | ⟨x, y, hx, hy, hxy⟩ | ⟨x, y, -, hy, -⟩
  · exact htu
  · by_cases hu : cat.isArray u
    · obtain ⟨z, hz⟩ := isArray_iff.1 hu
      rw [subtype_array_iff hy hz] at htu
      rw [subtype_array_iff hx hz]
      rcases htu with hyz | ⟨hry, hrz, hyz⟩
      · exact Or.inl (equiv_trans hxy hyz)
      · exact Or.inr ⟨isReferenceElement_congr hxy ▸ hry, hrz, subtype_of_equiv_left hxy hyz⟩
    · exact h.subtype_of_array (isArray_iff.2 ⟨x, hx⟩) (isArray_iff.2 ⟨y, hy⟩) hu htu
  · have hexact := isExact_of_pointer hy
    exact subtype_of_equiv (equiv_trans hst (h.equiv_of_subtype_exact htu (Or.inl hexact)))
termination_by s.rank
decreasing_by exact rank_array_lt hx

/-- **Subtyping is a congruence** for equivalence. -/
lemma subtype_congr (hs : cat.equiv s s') (ht : cat.equiv t t') :
    cat.subtype s t = cat.subtype s' t' := by
  rw [Bool.eq_iff_iff]
  constructor
  · intro hst
    exact h.subtype_of_equiv_left (equiv_symm hs) (h.subtype_of_equiv_right hst ht)
  · intro hst
    exact h.subtype_of_equiv_left hs (h.subtype_of_equiv_right hst (equiv_symm ht))

/-- **Equivalent types correspond.** -/
theorem corresponds : Corresponds (fun s t => cat.equiv s t) cat cat where
  toSameKinds := sameKinds_equiv cat
  core _ _ := equiv_refl _
  array_of _ _ := equiv_array
  pointer_of _ _ := equiv_pointer
  nameOf _ _ := h.nameOf_congr
  isTop _ _ := h.isTop_congr
  baseChain _ _ := h.baseChain_congr
  interfaces _ _ := h.interfaces_congr
  interface _ _ _ _ _ := equiv_refl _
  equiv _ _ _ _ := equiv_congr
  subtype _ _ _ _ := h.subtype_congr

end Lawful

end StackTyping.Catalog
