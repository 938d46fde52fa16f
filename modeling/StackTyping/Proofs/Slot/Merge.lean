import StackTyping.Proofs.Outcome
import StackTyping.Proofs.Slot.Assign
import StackTyping.Slot.Merge

/-!
The merge of two slots takes both of them.

The rules by which two slots merge are read off the algorithm first, as a relation with one case
for each way to succeed. In each case the result is one of the two slots up to the width of
numbers, or a reference to a common supertype; so it not only accepts both but could store both,
which is the stronger fact that a join of several paths needs.
-/

namespace StackTyping

variable {cat : Catalog} {a b u : Slot} {s t v x y e : Ty}

namespace Slot

/-- The two slots are of types that merge in a common supertype, if at all: neither is `null` or
rigid, and they differ. -/
structure Apart (cat : Catalog) (a b : Slot) (s t : Ty) : Prop where
  left_ty : a.ty = some s
  right_ty : b.ty = some t
  differ : (a.weak cat).equiv cat (b.weak cat) = false
  left_free : a.isRigid cat = false
  right_free : b.isRigid cat = false

/-- The ways in which two slots merge. -/
inductive Merges (cat : Catalog) : Slot → Slot → Slot → Prop where
  | nullLeft {a b : Slot} (ha : a.ty = none) (hb : b.isInline cat = false) : Merges cat a b b
  | nullRight {a b : Slot} (hb : b.ty = none) (ha : a.isInline cat = false) : Merges cat a b a
  | same {a b : Slot} (h : (a.weak cat).equiv cat (b.weak cat)) : Merges cat a b (a.weak cat)
  | valueArrays {a b : Slot} {s t x y : Ty} (h : Apart cat a b s t) (hs : cat.kind s = .array x)
      (ht : cat.kind t = .array y) (hxy : cat.isBoxable x ∨ cat.isBoxable y) :
      Merges cat a b (declared .arrayBase)
  | arrays {a b u : Slot} {s t x y e : Ty} (h : Apart cat a b s t) (hs : cat.kind s = .array x)
      (ht : cat.kind t = .array y) (hx : cat.isBoxable x = false) (hy : cat.isBoxable y = false)
      (helem : Merges cat (declared x) (declared y) u) (hu : u.ty = some e) :
      Merges cat a b (declared (.array e))
  | interface {a b : Slot} {s t : Ty} (h : Apart cat a b s t)
      (hst : cat.isInterface s ∨ cat.isInterface t) :
      Merges cat a b (declared (cat.sharedInterface s t))
  | base {a b : Slot} {s t v : Ty} (h : Apart cat a b s t) (hv : cat.sharedBase? s t = some v) :
      Merges cat a b (boxedOf cat v)

lemma merges_of_merge {a b u : Slot} (h : a.merge cat b = .ok u) : Merges cat a b u := by
  rw [merge] at h
  split at h
  · rename_i ha
    split at h
    · cases h
    · rename_i hb
      cases h
      exact .nullLeft ha (Bool.eq_false_iff.2 hb)
  · rename_i hb
    split at h
    · cases h
    · rename_i ha
      cases h
      exact .nullRight hb (Bool.eq_false_iff.2 ha)
  · rename_i s t ha hb
    split at h
    · rename_i hsame
      cases h
      exact .same hsame
    · rename_i hne
      split at h
      · cases h
      · rename_i hfree
        obtain ⟨hfa, hfb⟩ := Bool.or_eq_false_iff.1 (Bool.eq_false_iff.2 hfree)
        have hapart : Apart cat a b s t := ⟨ha, hb, Bool.eq_false_iff.2 hne, hfa, hfb⟩
        split at h
        -- two arrays: the elements are merged in turn, and have a smaller rank
        · rename_i x y hs ht
          split at h
          · rename_i hval
            cases h
            exact .valueArrays hapart hs ht (Bool.or_eq_true_iff.1 hval)
          · rename_i hval
            obtain ⟨hx, hy⟩ := Bool.or_eq_false_iff.1 (Bool.eq_false_iff.2 hval)
            obtain ⟨elem, helem, h⟩ := bind_eq_ok_iff.1 h
            split at h
            · rename_i e he
              cases h
              have hlt : ((declared x).ty.map Ty.rank).getD 0 < (a.ty.map Ty.rank).getD 0 := by
                simpa [declared, ha] using Catalog.rank_array_lt hs
              exact .arrays hapart hs ht hx hy (merges_of_merge helem) he
            · cases h
        · split at h
          · rename_i hint
            cases h
            exact .interface hapart (Bool.or_eq_true_iff.1 hint)
          · split at h
            · rename_i v hv
              cases h
              exact .base hapart hv
            · cases h
termination_by (a.ty.map Ty.rank).getD 0
decreasing_by assumption

end Slot

/-! ### Common supertypes -/

namespace Catalog

/-- The search for a shared interface finds one that both types inherit. -/
lemma Lawful.inherits_of_find? (h : Lawful cat) {i : EntryId}
    (hi : (cat.interfaces s).find? (fun i =>
      (cat.interfaces t).any fun j => cat.equiv (.entry i) (.entry j)) = some i) :
    cat.kind (.entry i) = .interface ∧ cat.Inherits s (.entry i) ∧ cat.Inherits t (.entry i) := by
  have hmem := List.mem_of_find?_eq_some hi
  have hany := List.find?_some hi
  simp only [List.any_eq_true] at hany
  obtain ⟨j, hj, hij⟩ := hany
  have hkind := h.kind_of_mem_interfaces hj
  have hij := eq_of_equiv hij (by rw [element?, hkind]; rfl)
  exact ⟨hij ▸ hkind, inherits_of_mem_interfaces hmem, hij ▸ inherits_of_mem_interfaces hj⟩

/-- A shared interface is inherited by both types; without one the top class takes its place. -/
lemma Lawful.sharedInterface_cases (h : Lawful cat) (s t : Ty) :
    cat.sharedInterface s t = .object ∨
      ∃ i, cat.sharedInterface s t = .entry i ∧ cat.kind (.entry i) = .interface ∧
        cat.Inherits s (.entry i) ∧ cat.Inherits t (.entry i) := by
  unfold sharedInterface
  split
  rename_i first second hpair
  dsimp only
  split
  · rename_i i hi
    obtain ⟨hkind, hfirst, hsecond⟩ := h.inherits_of_find? hi
    refine Or.inr ⟨i, rfl, hkind, ?_⟩
    split at hpair
    · cases hpair
      exact ⟨hsecond, hfirst⟩
    · cases hpair
      exact ⟨hfirst, hsecond⟩
  · exact Or.inl rfl

/-- A shared base lies on the chain of the first type and agrees with one on the second. -/
lemma extends_of_sharedBase? (h : cat.sharedBase? s t = some v) :
    cat.Extends s v ∧ ∃ w, cat.Extends t w ∧ cat.equiv v w := by
  unfold sharedBase? at h
  dsimp only at h
  split at h
  · obtain ⟨⟨v', w⟩, hlast, rfl⟩ := Option.map_eq_some_iff.1 h
    have hmem := List.mem_of_getLast? hlast
    obtain ⟨hv, hw⟩ := List.of_mem_zip ((List.takeWhile_sublist _).mem hmem)
    have hvw := List.all_eq_true.1 List.all_takeWhile _ hmem
    exact ⟨mem_baseChain.1 hv, w, mem_baseChain.1 hw, hvw⟩
  · cases h

namespace Lawful

variable (h : Lawful cat)
include h

lemma subtype_of_extends (hs : cat.isExact s = false) (hv : cat.Extends s v) :
    cat.subtype s v := by
  rcases Relation.ReflTransGen.cases_tail hv with rfl | ⟨_, -, hb⟩
  · exact subtype_of_equiv (equiv_refl _)
  · have hk := h.kind_of_base? hb
    exact h.subtype_of_inherits hs (isExact_of_kind (Or.inl hk)).1 hv.inherits

lemma subtype_sharedBase (hs : cat.isExact s = false) (ht : cat.isExact t = false)
    (hv : cat.sharedBase? s t = some v) : cat.subtype s v ∧ cat.subtype t v := by
  obtain ⟨hsv, w, htw, hvw⟩ := extends_of_sharedBase? hv
  refine ⟨h.subtype_of_extends hs hsv, ?_⟩
  rcases h.eq_or_element?_of_inherits htw.inherits with rfl | hw
  · exact subtype_of_equiv (equiv_symm hvw)
  · rw [eq_of_equiv hvw hw]
    exact h.subtype_of_extends ht htw

lemma subtype_sharedInterface (hs : cat.isExact s = false) (ht : cat.isExact t = false) :
    cat.subtype s (cat.sharedInterface s t) ∧ cat.subtype t (cat.sharedInterface s t) ∧
      cat.isBoxable (cat.sharedInterface s t) = false := by
  rcases h.sharedInterface_cases s t with hv | ⟨i, hv, hk, hsi, hti⟩ <;> rw [hv]
  · exact ⟨h.subtype_object hs, h.subtype_object ht,
      (isExact_of_kind (Or.inl h.kind_object)).2⟩
  · obtain ⟨hx, hbox⟩ := isExact_of_kind (Or.inr hk)
    exact ⟨h.subtype_of_inherits hs hx hsi, h.subtype_of_inherits ht hx hti, hbox⟩

lemma isReferenceElement_of_subtype (hx : cat.isReferenceElement x) (hxe : cat.subtype x e) :
    cat.isReferenceElement e := by
  by_cases ha : cat.isArray x ∧ cat.isArray e
  · obtain ⟨y, hy⟩ := isArray_iff.1 ha.2
    rw [isReferenceElement, (isExact_of_array hy).1, (isExact_of_array hy).2]
    rfl
  · rcases (h.subtype_iff ha).1 hxe with heq | ⟨-, he, rfl | hinh⟩
    · rw [← isReferenceElement_congr heq]
      exact hx
    · rw [isReferenceElement, he, (isExact_of_kind (Or.inl h.kind_object)).2]
      rfl
    · rcases Relation.ReflTransGen.cases_tail hinh with rfl | ⟨_, -, hlink⟩
      · exact hx
      · rw [isReferenceElement, he, (isExact_of_kind (h.kind_of_link hlink)).2]
        rfl

lemma subtype_array_of_subtype (hs : cat.kind s = .array x) (hx : cat.isBoxable x = false)
    (hxe : cat.subtype x e) : cat.subtype s (.array e) := by
  rw [subtype_array_iff hs rfl]
  by_cases hxx : cat.isExact x
  · exact Or.inl (h.equiv_of_subtype_exact hxe (Or.inl hxx))
  · have href : cat.isReferenceElement x := by simp [isReferenceElement, hx, hxx]
    exact Or.inr ⟨href, h.isReferenceElement_of_subtype href hxe, hxe⟩

end Lawful

end Catalog

/-! ### Soundness -/

namespace Slot

lemma isRigid_eq_false (ha : a.isRigid cat = false) (hs : a.ty = some s) :
    a.isInline cat = false ∧ cat.isExact s = false := by
  simp only [isRigid, Bool.or_eq_false_iff, isPointer, isVoid, hs, Option.any_some] at ha
  exact ⟨ha.1.1, by rw [Catalog.isExact, ha.1.2, ha.2]; rfl⟩

lemma Apart.not_inline (h : Apart cat a b s t) : a.isInline cat = false ∧ b.isInline cat = false :=
  ⟨(isRigid_eq_false h.left_free h.left_ty).1, (isRigid_eq_false h.right_free h.right_ty).1⟩

lemma Apart.not_exact (h : Apart cat a b s t) : cat.isExact s = false ∧ cat.isExact t = false :=
  ⟨(isRigid_eq_false h.left_free h.left_ty).2, (isRigid_eq_false h.right_free h.right_ty).2⟩

/-- The merge of well-boxed slots is well boxed, in any catalog. -/
lemma Merges.wellBoxed (h : Merges cat a b u) (ha : a.WellBoxed cat) (hb : b.WellBoxed cat) :
    u.WellBoxed cat := by
  cases h with
  | nullLeft => exact hb
  | nullRight => exact ha
  | same =>
    unfold weak
    split
    · exact wellBoxed_declared _
    · exact ha
  | valueArrays => exact wellBoxed_declared _
  | arrays => exact wellBoxed_declared _
  | interface => exact wellBoxed_declared _
  | base => exact wellBoxed_boxedOf _

end Slot

namespace Catalog.Lawful

open Slot

variable (h : Lawful cat)
include h

lemma stores_of_subtype (ha : a.ty = some t) (hia : a.isInline cat = false) (hb : b.ty = some s)
    (hib : b.isInline cat = false) (hst : cat.subtype s t) : a.stores cat b := by
  rw [stores_of_none (h.primitive?_of_not_inline hia)]
  exact h.accepts_of_subtype ha hia hb hib hst

/-- Slots of the same width are taken by their common weak form. -/
lemma stores_weak (hab : (a.weak cat).equiv cat (b.weak cat)) :
    (a.weak cat).stores cat a ∧ (a.weak cat).stores cat b := by
  rcases h.weak_equiv_cases hab with ⟨p, q, rfl, rfl, hq⟩ | ⟨ha, -, hab⟩
  · rw [h.weak_ofPrimitive]
    refine ⟨h.stores_ofPrimitive_iff.2 ⟨p, rfl, ?_⟩, h.stores_ofPrimitive_iff.2 ⟨q, rfl, ?_⟩⟩
    · rw [Primitive.weak_weak]
    · rw [Primitive.weak_weak, hq]
  · rw [weak_of_none ha]
    exact ⟨h.stores_refl a, h.stores_of_equiv hab⟩

lemma covers_of_apart (hab : Apart cat a b s t) (hu : u.ty = some v) (hiu : u.isInline cat = false)
    (hsv : cat.subtype s v) (htv : cat.subtype t v) : u.Covers cat a ∧ u.Covers cat b := by
  obtain ⟨hia, hib⟩ := hab.not_inline
  exact ⟨Or.inl (h.stores_of_subtype hu hiu hab.left_ty hia hsv),
    Or.inl (h.stores_of_subtype hu hiu hab.right_ty hib htv)⟩

/-- **Merging is sound**: what two slots merge in covers both of them. -/
theorem covers_of_merges (hm : Merges cat a b u) : u.Covers cat a ∧ u.Covers cat b := by
  induction hm with
  | nullLeft ha hib => exact ⟨h.covers_of_none hib ha, Or.inl (h.stores_refl _)⟩
  | nullRight hb hia => exact ⟨Or.inl (h.stores_refl _), h.covers_of_none hia hb⟩
  | same hab => exact (h.stores_weak hab).imp Or.inl Or.inl
  | valueArrays hab hs ht hxy =>
    obtain ⟨hx, hbox⟩ := isExact_of_kind (Or.inl h.kind_arrayBase)
    obtain ⟨hsx, htx⟩ := hab.not_exact
    have hsa := h.inherits_arrayBase (isArray_iff.2 ⟨_, hs⟩)
    have hta := h.inherits_arrayBase (isArray_iff.2 ⟨_, ht⟩)
    refine h.covers_of_apart hab rfl (by rw [isInline_declared, hbox]) ?_ ?_
    · exact h.subtype_of_inherits hsx hx hsa
    · exact h.subtype_of_inherits htx hx hta
  | @arrays a b u s t x y e hab hs ht hx hy helem hu ih =>
    -- the elements are no inline values, so the merged element is a supertype of both
    have hux := h.accepts_of_stores (ih.1.stores hu)
    have huy := h.accepts_of_stores (ih.2.stores hu)
    have hxe := h.subtype_of_accepts hux hu rfl (by rw [isInline_declared, hx])
    have hye := h.subtype_of_accepts huy hu rfl (by rw [isInline_declared, hy])
    refine h.covers_of_apart hab rfl rfl ?_ ?_
    · exact h.subtype_array_of_subtype hs hx hxe
    · exact h.subtype_array_of_subtype ht hy hye
  | interface hab hst =>
    obtain ⟨hsx, htx⟩ := hab.not_exact
    obtain ⟨hs, ht, hbox⟩ := h.subtype_sharedInterface hsx htx
    exact h.covers_of_apart hab rfl (by rw [isInline_declared, hbox]) hs ht
  | @base a b s t v hab hv =>
    obtain ⟨hsx, htx⟩ := hab.not_exact
    obtain ⟨hs, ht⟩ := h.subtype_sharedBase hsx htx hv
    exact h.covers_of_apart hab rfl (isInline_boxedOf v) hs ht

end Catalog.Lawful

/-- **The merge accepts both slots** and is again boxed only where it can be, whichever named
types were declared to implement interfaces. -/
theorem merge_accepts {P : EntryId → Prop} (hcat : Catalog.Grown P cat) (ha : a.WellBoxed cat)
    (hb : b.WellBoxed cat) (h : a.merge cat b = .ok u) :
    u.accepts cat a ∧ u.accepts cat b ∧ u.WellBoxed cat := by
  have hm := Slot.merges_of_merge h
  have hu := hm.wellBoxed ha hb
  obtain ⟨hua, hub⟩ := hcat.lawful.covers_of_merges hm
  exact ⟨hcat.lawful.accepts_of_covers hu ha hua, hcat.lawful.accepts_of_covers hu hb hub, hu⟩

/-- Arrays of strings and arrays of exceptions meet in arrays of objects. -/
theorem merge_accepts_arrays :
    (Slot.declared (.array .string)).merge .core (.declared (.array (.entry EntryId.exception)))
        = .ok (.declared (.array .object)) ∧
      (Slot.declared (.array .object)).accepts .core (.declared (.array .string)) ∧
      (Slot.declared (.array .object)).accepts .core
        (.declared (.array (.entry EntryId.exception))) ∧
      (Slot.declared (.array .object)).WellBoxed .core := by
  have hm : (Slot.declared (.array .string)).merge .core
      (.declared (.array (.entry EntryId.exception))) = .ok (.declared (.array .object)) := by
    decide +kernel
  exact ⟨hm, merge_accepts (P := fun _ => True) .core (Slot.wellBoxed_declared _)
    (Slot.wellBoxed_declared _) hm⟩

end StackTyping
