import StackTyping.Proofs.Catalog.Hierarchy

/-!
Subtyping in a grown catalog.

Apart from arrays of references, a subtype is an equivalent type or one that inherits the other,
with the top class above everything that is neither a pointer nor void. From this description
subtyping is seen to be reflexive and, where the top class has no interfaces, transitive.
-/

namespace StackTyping.Catalog

variable {cat : Catalog} {s t u x y : Ty}

lemma isArray_iff : cat.isArray t ↔ ∃ x, cat.kind t = .array x := by
  unfold isArray
  cases cat.kind t <;> simp [Kind.isArray]

lemma isPointer_iff : cat.isPointer t ↔ ∃ x, cat.kind t = .pointer x := by
  unfold isPointer
  cases cat.kind t <;> simp [Kind.isPointer]

lemma isEnum_iff : cat.isEnum t ↔ cat.kind t = .enumType := by
  unfold isEnum
  cases cat.kind t <;> simp [Kind.isEnum]

lemma isExact_of_pointer (h : cat.kind t = .pointer x) : cat.isExact t = true := by
  rw [isExact, isPointer, h]
  rfl

lemma isExact_of_isBoxable (h : cat.isBoxable t) : cat.isExact t = false := by
  rw [isBoxable] at h
  rw [isExact, isPointer, isVoid]
  cases hk : cat.kind t with
  | valueType p? => rfl
  | enumType => rfl
  | _ => rw [hk] at h; cases h

lemma isExact_of_array (h : cat.kind t = .array x) :
    cat.isExact t = false ∧ cat.isBoxable t = false := by
  rw [isExact, isPointer, isVoid, isBoxable, h]
  exact ⟨rfl, rfl⟩

lemma isExact_of_kind (h : cat.kind t = .classType ∨ cat.kind t = .interface) :
    cat.isExact t = false ∧ cat.isBoxable t = false := by
  rcases h with h | h <;> rw [isExact, isPointer, isVoid, isBoxable, h] <;> exact ⟨rfl, rfl⟩

lemma subtype_of_equiv (h : cat.equiv s t) : cat.subtype s t := by
  rw [subtype, h, Bool.true_or]

/-- **Covariance**: arrays compare by their elements, and only elements that are references need
not be equivalent. -/
lemma subtype_array_iff (hs : cat.kind s = .array x) (ht : cat.kind t = .array y) :
    cat.subtype s t ↔
      cat.equiv x y ∨ cat.isReferenceElement x ∧ cat.isReferenceElement y ∧ cat.subtype x y := by
  rw [subtype, Bool.or_eq_true, equiv_array_iff hs ht]
  split
  · rename_i x' y' hs' ht'
    rw [hs] at hs'
    rw [ht] at ht'
    cases hs'
    cases ht'
    simp only [Bool.and_eq_true, and_assoc]
  · rename_i hne
    exact absurd ht (hne x y hs)

namespace Lawful

variable (h : Lawful cat)
include h

lemma inherits_enumBase (hs : cat.isEnum s) : cat.Inherits s .enumBase :=
  .single (Or.inl (h.base?_enum (isEnum_iff.1 hs)))

lemma inherits_arrayBase (hs : cat.isArray s) : cat.Inherits s .arrayBase := by
  obtain ⟨x, hx⟩ := isArray_iff.1 hs
  exact .single (Or.inl (h.base?_array hx))

/-- Subtyping between types that are not both arrays. -/
lemma subtype_iff (hst : ¬(cat.isArray s ∧ cat.isArray t)) :
    cat.subtype s t ↔ cat.equiv s t ∨
      cat.isExact s = false ∧ cat.isExact t = false ∧ (t = .object ∨ cat.Inherits s t) := by
  rw [subtype, Bool.or_eq_true]
  split
  · rename_i x y hs ht
    exact absurd ⟨isArray_iff.2 ⟨x, hs⟩, isArray_iff.2 ⟨y, ht⟩⟩ hst
  simp only [Bool.and_eq_true, Bool.or_eq_true, Bool.not_eq_true', beq_iff_eq, h.isTop_iff,
    h.derives_iff, and_assoc]
  constructor
  · rintro (heq | ⟨hs, ht, ((⟨rfl, hs'⟩ | ⟨rfl, hs'⟩) | rfl) | heq | hinh⟩)
    · exact Or.inl heq
    · exact Or.inr ⟨hs, ht, Or.inr (h.inherits_enumBase hs')⟩
    · exact Or.inr ⟨hs, ht, Or.inr (h.inherits_arrayBase hs')⟩
    · exact Or.inr ⟨hs, ht, Or.inl rfl⟩
    · exact Or.inl heq
    · exact Or.inr ⟨hs, ht, Or.inr hinh⟩
  · rintro (heq | ⟨hs, ht, rfl | hinh⟩)
    · exact Or.inl heq
    · exact Or.inr ⟨hs, ht, Or.inl (Or.inr rfl)⟩
    · exact Or.inr ⟨hs, ht, Or.inr (Or.inr hinh)⟩

lemma eq_of_inherits_array (hi : cat.Inherits s t) (ht : cat.isArray t) : s = t := by
  obtain ⟨x, hx⟩ := isArray_iff.1 ht
  rcases h.eq_or_element?_of_inherits hi with hst | he
  · exact hst
  · rw [element?, hx] at he
    cases he

lemma isArray_of_subtype (hst : cat.subtype s t) (ht : cat.isArray t) : cat.isArray s := by
  by_contra hs
  rcases (h.subtype_iff fun ha => hs ha.1).1 hst with heq | ⟨-, -, rfl | hinh⟩
  · exact hs ((isArray_congr heq).trans ht)
  · rw [isArray, h.kind_object] at ht
    cases ht
  · exact hs (h.eq_of_inherits_array hinh ht ▸ ht)

lemma subtype_of_inherits (hs : cat.isExact s = false) (ht : cat.isExact t = false)
    (hi : cat.Inherits s t) : cat.subtype s t := by
  by_cases hst : cat.isArray s ∧ cat.isArray t
  · obtain rfl := h.eq_of_inherits_array hi hst.2
    exact subtype_of_equiv (equiv_refl _)
  · exact (h.subtype_iff hst).2 (Or.inr ⟨hs, ht, Or.inr hi⟩)

lemma subtype_object (hs : cat.isExact s = false) : cat.subtype s .object := by
  have hk := h.kind_object
  have hx := (isExact_of_kind (Or.inl hk)).1
  refine (h.subtype_iff fun hst => ?_).2 (Or.inr ⟨hs, hx, Or.inl rfl⟩)
  rw [isArray, isArray, hk] at hst
  cases hst.2

/-- Pointers and void have no other subtypes and no other supertypes. -/
lemma equiv_of_subtype_exact (hst : cat.subtype s t) (he : cat.isExact s ∨ cat.isExact t) :
    cat.equiv s t := by
  have hna : ¬(cat.isArray s ∧ cat.isArray t) := by
    rintro ⟨hs, ht⟩
    obtain ⟨x, hx⟩ := isArray_iff.1 hs
    obtain ⟨y, hy⟩ := isArray_iff.1 ht
    rcases he with he | he
    · rw [(isExact_of_array hx).1] at he
      cases he
    · rw [(isExact_of_array hy).1] at he
      cases he
  rcases (h.subtype_iff hna).1 hst with heq | ⟨hs, ht, -⟩
  · exact heq
  · rcases he with he | he
    · rw [hs] at he
      cases he
    · rw [ht] at he
      cases he

/-- An array inherits what the common array class does, and itself. -/
lemma inherits_of_array (hs : cat.isArray s) (hi : cat.Inherits s u) :
    s = u ∨ cat.Inherits .arrayBase u := by
  obtain ⟨x, hx⟩ := isArray_iff.1 hs
  rcases Relation.ReflTransGen.cases_head hi with rfl | ⟨b, hlink, hrest⟩
  · exact Or.inl rfl
  · rcases hlink with hb | ⟨j, hj, -⟩
    · rw [h.base?_array hx] at hb
      cases hb
      exact Or.inr hrest
    · rw [h.declaredInterfaces_eq_nil (by rw [element?, hx]; rfl)] at hj
      cases hj

lemma eq_of_inherits_object (hobj : cat.implements.targets EntryId.object = [])
    (hi : cat.Inherits .object u) : u = .object := by
  rcases Relation.ReflTransGen.cases_head hi with hu | ⟨b, hlink, -⟩
  · exact hu.symm
  · rcases hlink with hb | ⟨j, hj, -⟩
    · rw [h.base?_object] at hb
      cases hb
    · have hj : j ∈ cat.implements.targets EntryId.object := hj
      rw [hobj] at hj
      cases hj

/-- A supertype of an array that is no array is a supertype of every array. -/
lemma subtype_of_array (hs : cat.isArray s) (ht : cat.isArray t) (hu : ¬cat.isArray u)
    (htu : cat.subtype t u) : cat.subtype s u := by
  obtain ⟨x, hx⟩ := isArray_iff.1 hs
  have hsx := (isExact_of_array hx).1
  rcases (h.subtype_iff fun htu => hu htu.2).1 htu with heq | ⟨-, hux, rfl | hinh⟩
  · rw [isArray_congr heq] at ht
    exact absurd ht hu
  · exact h.subtype_object hsx
  · rcases h.inherits_of_array ht hinh with rfl | hinh
    · exact absurd ht hu
    · exact h.subtype_of_inherits hsx hux ((h.inherits_arrayBase hs).trans hinh)

lemma subtype_of_equiv_right {s t u : Ty} (hst : cat.subtype s t) (htu : cat.equiv t u) :
    cat.subtype s u := by
  rcases equiv_cases htu with rfl | ⟨y, z, hy, hz, hyz⟩ | ⟨y, z, hy, -, -⟩
  · exact hst
  · obtain ⟨x, hx⟩ := isArray_iff.1 (h.isArray_of_subtype hst (isArray_iff.2 ⟨y, hy⟩))
    rw [subtype_array_iff hx hy] at hst
    rw [subtype_array_iff hx hz]
    rcases hst with hxy | ⟨hrx, hry, hxy⟩
    · exact Or.inl (equiv_trans hxy hyz)
    · exact Or.inr ⟨hrx, isReferenceElement_congr hyz ▸ hry, subtype_of_equiv_right hxy hyz⟩
  · have ht := isExact_of_pointer hy
    exact subtype_of_equiv (equiv_trans (h.equiv_of_subtype_exact hst (Or.inr ht)) htu)
termination_by s.rank
decreasing_by exact rank_array_lt hx

/-- **Subtyping is transitive** where the top class has no interfaces of its own. -/
theorem subtype_trans {s t u : Ty} (hobj : cat.implements.targets EntryId.object = [])
    (hst : cat.subtype s t) (htu : cat.subtype t u) : cat.subtype s u := by
  -- by the rank of `s`: three arrays compare by their elements, all else by inheritance
  by_cases ha : cat.isArray s ∧ cat.isArray t
  · obtain ⟨x, hx⟩ := isArray_iff.1 ha.1
    obtain ⟨y, hy⟩ := isArray_iff.1 ha.2
    by_cases hu : cat.isArray u
    · obtain ⟨z, hz⟩ := isArray_iff.1 hu
      rw [subtype_array_iff hy hz] at htu
      rcases htu with hyz | ⟨hry', hrz, hyz⟩
      · exact h.subtype_of_equiv_right hst ((equiv_array_iff hy hz).2 hyz)
      rw [subtype_array_iff hx hy] at hst
      rw [subtype_array_iff hx hz]
      rcases hst with hxy | ⟨hrx, -, hxy⟩
      · exact Or.inr ⟨isReferenceElement_congr hxy ▸ hry', hrz,
          subtype_trans hobj (subtype_of_equiv hxy) hyz⟩
      · exact Or.inr ⟨hrx, hrz, subtype_trans hobj hxy hyz⟩
    · exact h.subtype_of_array ha.1 ha.2 hu htu
  · rcases (h.subtype_iff ha).1 hst with heq | ⟨hs, ht, hto⟩
    · rcases equiv_cases heq with rfl | ⟨x, y, hx, hy, -⟩ | ⟨x, y, hx, hy, -⟩
      · exact htu
      · exact absurd ⟨isArray_iff.2 ⟨x, hx⟩, isArray_iff.2 ⟨y, hy⟩⟩ ha
      · have hty := isExact_of_pointer hy
        exact subtype_of_equiv (equiv_trans heq (h.equiv_of_subtype_exact htu (Or.inl hty)))
    · by_cases hat : cat.isArray t
      · exact absurd ⟨h.isArray_of_subtype hst hat, hat⟩ ha
      · rcases (h.subtype_iff fun htu => hat htu.1).1 htu with heq | ⟨-, hu, rfl | hinh'⟩
        · exact h.subtype_of_equiv_right hst heq
        · exact h.subtype_object hs
        · rcases hto with rfl | hinh
          · obtain rfl := h.eq_of_inherits_object hobj hinh'
            exact hst
          · exact h.subtype_of_inherits hs hu (hinh.trans hinh')
termination_by s.rank
decreasing_by all_goals exact rank_array_lt hx

end Lawful

end StackTyping.Catalog
