import StackTyping.Proofs.Slot.Congruence
import StackTyping.Proofs.Slot.Least

/-!
Which slots do not merge.

Two slots clash if one is `null` and the other an inline value, or if they differ and one of them is
rigid. Clashing slots never merge. All others do, as long as no array holds pointers or void: every
class, value type, enumeration and array has the top class among its bases, so two of them share at
least that; where an interface is involved the top class stands in for a missing shared interface;
and the elements of two arrays are references again, so they merge in one.
-/

namespace StackTyping

variable {cat : Catalog} {a b c u : Slot} {s t x : Ty}

namespace Catalog

/-- The type is an array of pointers or void, or an array of such arrays. -/
def hasExactElement (cat : Catalog) (t : Ty) : Bool :=
  match _h : cat.kind t with
  | .array x => cat.isExact x || cat.hasExactElement x
  | _ => false
termination_by t.rank
decreasing_by exact rank_array_lt _h

lemma hasExactElement_array (h : cat.kind t = .array x) :
    cat.hasExactElement t = (cat.isExact x || cat.hasExactElement x) := by
  rw [hasExactElement]
  split
  · rename_i y hy
    rw [h] at hy
    cases hy
    rfl
  · rename_i hne
    exact absurd h (hne x)

lemma hasExactElement_of_not_array (h : ¬cat.isArray t) : cat.hasExactElement t = false := by
  rw [hasExactElement]
  split
  · rename_i x hx
    exact absurd (isArray_iff.2 ⟨x, hx⟩) h
  · rfl

/-! ### The top class is shared -/

namespace Lawful

variable (h : Lawful cat)
include h

/-- Of the types other than the top class, only interfaces, pointers and void may have no base. -/
lemma exists_base? (hobj : s ≠ .object) (hs : cat.isExact s = false)
    (hint : cat.kind s ≠ .interface) : ∃ b, cat.base? s = some b := by
  have hshape := h.shape s hobj
  rw [isExact, isPointer, isVoid] at hs
  generalize cat.kind s = k at hshape hs hint
  generalize cat.base? s = b? at hshape
  cases hshape with
  | classType _ | valueType _ | enumType | array _ => exact ⟨_, rfl⟩
  | interface => exact absurd rfl hint
  | void | voidType | pointer _ => cases hs

lemma extends_object {s : Ty} (hs : cat.isExact s = false) (hint : cat.kind s ≠ .interface) :
    cat.Extends s .object := by
  by_cases hobj : s = .object
  · rw [hobj]
    exact .refl
  · obtain ⟨b, hb⟩ := h.exists_base? hobj hs hint
    have hk := h.kind_of_base? hb
    exact .head hb (extends_object (isExact_of_kind (Or.inl hk)).1 (by rw [hk]; simp))
termination_by s.rank
decreasing_by exact rank_base?_lt hb

lemma exists_sharedBase? (hs : cat.Extends s .object) (ht : cat.Extends t .object) :
    ∃ v, cat.sharedBase? s t = some v := by
  have htop := h.isTop_iff.2 rfl
  obtain ⟨l, hl⟩ := isPrefix_baseChain hs
  obtain ⟨m, hm⟩ := isPrefix_baseChain ht
  rw [baseChain_of_none h.base?_object] at hl hm
  simp [sharedBase?, ← hl, ← hm, htop, List.getLast?_cons]

end Lawful

end Catalog

namespace Slot

def hasExactElement (cat : Catalog) (a : Slot) : Bool := a.ty.any cat.hasExactElement

/-- The slots are `null` and an inline value, or they differ and one of them is rigid. -/
def Clashes (cat : Catalog) (a b : Slot) : Prop :=
  a.isNull ∧ b.isInline cat ∨ b.isNull ∧ a.isInline cat ∨
    (a.isNull = false ∧ b.isNull = false) ∧ (a.weak cat).equiv cat (b.weak cat) = false ∧
      (a.isRigid cat ∨ b.isRigid cat)

instance (cat : Catalog) (a b : Slot) : Decidable (a.Clashes cat b) :=
  inferInstanceAs (Decidable (_ ∨ _))

/-- **Slots that clash do not merge**, in any catalog. -/
lemma merge_of_clashes (h : a.Clashes cat b) : a.merge cat b = .error (.noCommonType a b) := by
  rcases h with ⟨ha, hb⟩ | ⟨hb, ha⟩ | ⟨⟨ha, hb⟩, hne, hr⟩
  · rw [merge_null_left (Option.isNone_iff_eq_none.1 ha), if_pos hb]
  · cases hs : a.ty with
    | none =>
      rw [isInline_of_none hs] at ha
      cases ha
    | some s => rw [merge_null_right hs (Option.isNone_iff_eq_none.1 hb), if_pos ha]
  · obtain ⟨s, hs⟩ := Option.isSome_iff_exists.1 (Option.isNone_eq_false_iff.1 ha)
    obtain ⟨t, ht⟩ := Option.isSome_iff_exists.1 (Option.isNone_eq_false_iff.1 hb)
    exact merge_rigid hs ht hne (Bool.or_eq_true_iff.2 hr)

lemma Clashes.symm (h : a.Clashes cat b) : b.Clashes cat a := by
  rcases h with hnull | hnull | ⟨hnull, hne, hr⟩
  · exact Or.inr (Or.inl hnull)
  · exact Or.inl hnull
  · refine Or.inr (Or.inr ⟨hnull.symm, Bool.eq_false_iff.2 fun heq => ?_, hr.symm⟩)
    rw [equiv_symm heq] at hne
    cases hne

lemma clashes_comm : a.Clashes cat b ↔ b.Clashes cat a := ⟨Clashes.symm, Clashes.symm⟩

lemma isNull_of_none (ha : a.ty = none) : a.isNull = true := by
  rw [isNull, ha]
  rfl

lemma isRigid_of_none (ha : a.ty = none) : a.isRigid cat = false := by
  simp [isRigid, isInline_of_none ha, isPointer, isVoid, ha]

/-- The objects are the slots that are neither `null` nor rigid. -/
lemma isObject_iff : a.IsObject cat ↔ a.isNull = false ∧ a.isRigid cat = false := by
  constructor
  · rintro ⟨t, ht, hinline, hexact⟩
    rw [Catalog.isExact, Bool.or_eq_false_iff] at hexact
    simp [isNull, isRigid, isPointer, isVoid, ht, hinline, hexact]
  · rintro ⟨hnull, hfree⟩
    obtain ⟨t, ht⟩ := Option.isSome_iff_exists.1 (Option.isNone_eq_false_iff.1 hnull)
    exact ⟨t, ht, isRigid_eq_false hfree ht⟩

lemma Apart.isObject (h : Apart cat a b s t) : a.IsObject cat ∧ b.IsObject cat :=
  ⟨⟨s, h.left_ty, h.not_inline.1, h.not_exact.1⟩, ⟨t, h.right_ty, h.not_inline.2, h.not_exact.2⟩⟩

lemma clashes_of_none (ha : a.ty = none) : a.Clashes cat b ↔ b.isInline cat := by
  have hnull := isNull_of_none ha
  simp [Clashes, hnull, isInline_of_none ha]

lemma isObject_element (hs : cat.kind s = .array x) (helem : cat.hasExactElement s = false)
    (hx : cat.isBoxable x = false) :
    (declared x).IsObject cat ∧ (declared x).hasExactElement cat = false := by
  rw [Catalog.hasExactElement_array hs, Bool.or_eq_false_iff] at helem
  exact ⟨⟨x, rfl, by rw [isInline_declared, hx], helem.1⟩, helem.2⟩

end Slot

namespace Catalog.Lawful

open Slot

variable (h : Lawful cat)
include h

/-- What is the same for all numbers does not change with the weak form. -/
lemma apply_weak {β : Type} (f : Slot → β)
    (hf : ∀ p q, f (ofPrimitive p) = f (ofPrimitive q)) : f (a.weak cat) = f a := by
  rcases h.eq_ofPrimitive_or a with ⟨p, rfl⟩ | ha
  · rw [h.weak_ofPrimitive]
    exact hf _ _
  · rw [weak_of_none ha]

lemma isInline_weak : (a.weak cat).isInline cat = a.isInline cat :=
  h.apply_weak (·.isInline cat) fun p q => by rw [h.isInline_ofPrimitive, h.isInline_ofPrimitive]

lemma isRigid_weak : (a.weak cat).isRigid cat = a.isRigid cat :=
  h.apply_weak (·.isRigid cat) fun p q => by
    rw [isRigid, isRigid, h.isInline_ofPrimitive, h.isInline_ofPrimitive]
    rfl

/-- Slots with one weak form clash with the same slots. -/
lemma clashes_congr (hab : (a.weak cat).equiv cat (b.weak cat)) :
    a.Clashes cat c ↔ b.Clashes cat c := by
  have hnull : a.isNull = b.isNull := by
    rw [← h.apply_weak isNull (fun _ _ => rfl), isNull_congr hab]
    exact h.apply_weak isNull fun _ _ => rfl
  have hinline : a.isInline cat = b.isInline cat := by
    rw [← h.isInline_weak, isInline_congr hab, h.isInline_weak]
  have hrigid : a.isRigid cat = b.isRigid cat := by
    rw [← h.isRigid_weak, isRigid_congr hab, h.isRigid_weak]
  have hequiv := Slot.equiv_congr hab (Slot.equiv_refl (c.weak cat))
  rw [Clashes, Clashes, hnull, hinline, hrigid, hequiv]

lemma clashes_of_isObject (ha : a.IsObject cat) : a.Clashes cat b ↔ b.isRigid cat := by
  obtain ⟨hnull, hfree⟩ := isObject_iff.1 ha
  constructor
  · rintro (⟨hn, -⟩ | ⟨-, hinline⟩ | ⟨-, -, hr | hr⟩)
    · rw [hnull] at hn
      cases hn
    · rw [ha.isInline_eq] at hinline
      cases hinline
    · rw [hfree] at hr
      cases hr
    · exact hr
  · intro hr
    refine Or.inr (Or.inr ⟨⟨hnull, Bool.eq_false_iff.2 fun hn => ?_⟩,
      Bool.eq_false_iff.2 fun heq => ?_, Or.inr hr⟩)
    · rw [isRigid_of_none (Option.isNone_iff_eq_none.1 hn)] at hr
      cases hr
    · rw [← h.isRigid_weak, ← isRigid_congr heq, h.isRigid_weak, hfree] at hr
      cases hr

lemma isObject_of_merge (ha : a.IsObject cat) (hu : a.merge cat b = .ok u) : u.IsObject cat := by
  obtain ⟨s, hs, hinline, hexact⟩ := ha
  have haccepts : u.accepts cat a := by
    rcases (h.covers_of_merges (merges_of_merge hu)).1 with hstores | ⟨-, hnone⟩
    · exact h.accepts_of_stores hstores
    · rw [hs] at hnone
      cases hnone
  obtain ⟨t, ht, hinline', hst⟩ := h.exists_supertype_of_accepts haccepts hs hinline
  exact ⟨t, ht, hinline', h.isExact_of_subtype hexact hst⟩

/-- Types that are not both arrays share an interface or a base, if only the top class. -/
lemma exists_merge_named (hab : Apart cat a b s t) (hna : ¬(cat.isArray s ∧ cat.isArray t)) :
    ∃ u, a.merge cat b = .ok u := by
  rw [hab.merge_named hna]
  split
  · exact ⟨_, rfl⟩
  · rename_i hint
    rw [Bool.or_eq_true, not_or, isInterface_iff, isInterface_iff] at hint
    obtain ⟨hsx, htx⟩ := hab.not_exact
    obtain ⟨v, hv⟩ := h.exists_sharedBase? (h.extends_object hsx hint.1)
      (h.extends_object htx hint.2)
    rw [hv]
    exact ⟨_, rfl⟩

/-- **Slots that do not clash merge**, unless an array in them holds pointers or void. -/
lemma exists_merge {a b : Slot} (hea : a.hasExactElement cat = false)
    (heb : b.hasExactElement cat = false) (hab : ¬a.Clashes cat b) :
    ∃ u, a.merge cat b = .ok u := by
  rcases merge_cases cat a b with hn | ⟨s, hs, hn⟩ | ⟨s, t, hs, ht, hsame | ⟨hne, hr⟩ | hapart⟩
  · rw [clashes_of_none hn] at hab
    exact ⟨b, by rw [merge_null_left hn, if_neg hab]⟩
  · rw [clashes_comm, clashes_of_none hn] at hab
    exact ⟨a, by rw [merge_null_right hs hn, if_neg hab]⟩
  · exact ⟨_, merge_same hs ht hsame⟩
  · have hnull : a.isNull = false ∧ b.isNull = false := by simp [isNull, hs, ht]
    exact absurd (Or.inr (Or.inr ⟨hnull, hne, Bool.or_eq_true_iff.1 hr⟩)) hab
  · by_cases harr : cat.isArray s ∧ cat.isArray t
    · obtain ⟨x, hx⟩ := isArray_iff.1 harr.1
      obtain ⟨y, hy⟩ := isArray_iff.1 harr.2
      rw [hapart.merge_arrays hx hy]
      split
      · exact ⟨_, rfl⟩
      · -- the elements are objects again, so they do not clash and merge in an object
        rename_i hval
        obtain ⟨hbx, hby⟩ := Bool.or_eq_false_iff.1 (Bool.eq_false_iff.2 hval)
        rw [Slot.hasExactElement, hs] at hea
        rw [Slot.hasExactElement, ht] at heb
        obtain ⟨hox, hex⟩ := isObject_element hx hea hbx
        obtain ⟨hoy, hey⟩ := isObject_element hy heb hby
        have hxy : ¬(declared x).Clashes cat (declared y) := by
          rw [h.clashes_of_isObject hox, (isObject_iff.1 hoy).2]
          simp
        have hlt : ((declared x).ty.map Ty.rank).getD 0 < (a.ty.map Ty.rank).getD 0 := by
          simpa [declared, hs] using rank_array_lt hx
        obtain ⟨elem, helem⟩ := exists_merge hex hey hxy
        obtain ⟨e, he, -, -⟩ := h.isObject_of_merge hox helem
        refine ⟨declared (.array e), bind_eq_ok_iff.2 ⟨elem, helem, ?_⟩⟩
        rw [he]
    · exact h.exists_merge_named hapart harr
termination_by (a.ty.map Ty.rank).getD 0
decreasing_by assumption

lemma not_clashes_of_isReference (ha : a.WellBoxed cat) (hb : b.WellBoxed cat)
    (hra : a.isReference cat) (hrb : b.isReference cat) : ¬a.Clashes cat b := by
  have hfree : b.isNull = true ∨ b.IsObject cat := by
    cases hnb : b.isNull with
    | true => exact Or.inl rfl
    | false => exact Or.inr (isObject_of_isReference hb hnb hrb)
  cases hna : a.isNull with
  | true =>
    rw [clashes_of_none (Option.isNone_iff_eq_none.1 hna)]
    rcases hfree with hnb | hob
    · simp [isInline_of_none (Option.isNone_iff_eq_none.1 hnb)]
    · simp [hob.isInline_eq]
  | false =>
    rw [h.clashes_of_isObject (isObject_of_isReference ha hna hra)]
    rcases hfree with hnb | hob
    · simp [isRigid_of_none (Option.isNone_iff_eq_none.1 hnb)]
    · simp [(isObject_iff.1 hob).2]

end Catalog.Lawful

/-- **Exactly the slots that clash fail to merge**, where no array holds pointers or void, and the
fault names the two slots. In particular any two references merge. -/
theorem merge_fails_iff_clashes {P : EntryId → Prop} (hcat : cat.Grown P) (ha : a.WellBoxed cat)
    (hb : b.WellBoxed cat) (hea : a.hasExactElement cat = false)
    (heb : b.hasExactElement cat = false) :
    ((∃ fault, a.merge cat b = .error fault) ↔ a.Clashes cat b) ∧
      (∀ fault, a.merge cat b = .error fault → fault = .noCommonType a b) ∧
      (a.isReference cat → b.isReference cat → ∃ u, a.merge cat b = .ok u) := by
  have hclash : ∀ fault, a.merge cat b = .error fault → a.Clashes cat b := by
    intro fault hfault
    by_contra hab
    obtain ⟨u, hu⟩ := hcat.lawful.exists_merge hea heb hab
    rw [hu] at hfault
    cases hfault
  refine ⟨⟨fun ⟨fault, hfault⟩ => hclash fault hfault, fun hab => ⟨_, Slot.merge_of_clashes hab⟩⟩,
    fun fault hfault => ?_, fun hra hrb => ?_⟩
  · rw [Slot.merge_of_clashes (hclash fault hfault)] at hfault
    exact (Except.error.inj hfault).symm
  · exact hcat.lawful.exists_merge hea heb
      (hcat.lawful.not_clashes_of_isReference ha hb hra hrb)

/-- Arrays of arrays of numbers and arrays of strings are references, so they merge; a pointer to a
string and a string do not, since they clash. -/
theorem merge_fails_iff_clashes_pointer :
    (∃ u, (Slot.declared (.array (.array (.ofPrimitive .int32)))).merge .core
        (.declared (.array .string)) = .ok u) ∧
      ∃ fault, (Slot.declared (.pointer .string)).merge .core (.declared .string)
        = .error fault := by
  obtain ⟨-, -, hreferences⟩ := merge_fails_iff_clashes (P := fun _ => True) .core
    (Slot.wellBoxed_declared (.array (.array (.ofPrimitive .int32))))
    (Slot.wellBoxed_declared (.array .string)) (by decide +kernel) (by decide +kernel)
  obtain ⟨hclash, -, -⟩ := merge_fails_iff_clashes (P := fun _ => True) .core
    (Slot.wellBoxed_declared (.pointer .string)) (Slot.wellBoxed_declared .string)
    (by decide +kernel) (by decide +kernel)
  exact ⟨hreferences (by decide +kernel) (by decide +kernel), hclash.2 (by decide +kernel)⟩

end StackTyping
