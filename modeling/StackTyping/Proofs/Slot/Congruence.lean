import StackTyping.Proofs.Fault
import StackTyping.Proofs.Slot.Commute
import StackTyping.Proofs.Stack

/-!
Merging related slots.

Two merges of related slots either both succeed, with related slots, or both fail, with related
faults. The same then holds of stacks, slot by slot.
-/

namespace StackTyping

namespace Catalog.Corresponds

open Slot

variable {T : Ty → Ty → Prop} {cat cat' : Catalog} (h : Corresponds T cat cat')
include h

section Slots

variable {a a' b b' : Slot} {s s' t t' x x' y y' : Ty}

lemma apart (hab : Apart cat a b s t) (ha : a.Related T a') (hb : b.Related T b')
    (hs : a'.ty = some s') (ht : b'.ty = some t') : Apart cat' a' b' s' t' := by
  refine ⟨hs, ht, ?_, h.slot_isRigid ha ▸ hab.left_free, h.slot_isRigid hb ▸ hab.right_free⟩
  rw [← h.slot_equiv (h.slot_weak ha) (h.slot_weak hb), hab.differ]

/-- Arrays merge alike if their elements do. -/
lemma merge_arrays (hab : Apart cat a b s t) (hab' : Apart cat' a' b' s' t') (ha : a.Related T a')
    (hb : b.Related T b') (hs : cat.kind s = .array x) (ht : cat.kind t = .array y)
    (hs' : cat'.kind s' = .array x') (ht' : cat'.kind t' = .array y') (hx : T x x') (hy : T y y')
    (hxy : Agree (Fault.Related T) (Slot.Related T) (merge cat (declared x) (declared y))
      (merge cat' (declared x') (declared y'))) :
    Agree (Fault.Related T) (Slot.Related T) (a.merge cat b) (a'.merge cat' b') := by
  rw [hab.merge_arrays hs ht, hab'.merge_arrays hs' ht', h.isBoxable hx, h.isBoxable hy]
  split
  · exact .ok (related_declared (h.core _ (by decide)))
  · refine hxy.bind fun u v huv => ?_
    have hty := huv.ty
    generalize u.ty = e? at hty ⊢
    generalize v.ty = f? at hty ⊢
    cases hty with
    | none => exact .error (.noCommonType ha hb)
    | some hef => exact .ok (related_declared (h.array_of _ _ hef))

lemma merge_named (hab : Apart cat a b s t) (hab' : Apart cat' a' b' s' t') (ha : a.Related T a')
    (hb : b.Related T b') (hs : T s s') (ht : T t t') (hna : ¬(cat.isArray s ∧ cat.isArray t)) :
    Agree (Fault.Related T) (Slot.Related T) (a.merge cat b) (a'.merge cat' b') := by
  have hna' : ¬(cat'.isArray s' ∧ cat'.isArray t') := by
    rwa [← h.isArray hs, ← h.isArray ht]
  rw [hab.merge_named hna, hab'.merge_named hna', h.isInterface hs, h.isInterface ht]
  split
  · exact .ok (related_declared (h.sharedInterface hs ht))
  · have hbase := h.sharedBase? hs ht
    generalize cat.sharedBase? s t = u? at hbase ⊢
    generalize cat'.sharedBase? s' t' = v? at hbase ⊢
    cases hbase with
    | none => exact .error (.noCommonType ha hb)
    | some huv => exact .ok (h.boxedOf huv)

end Slots

/-- **Related slots merge alike.** -/
theorem slot_merge {a a' b b' : Slot} (ha : a.Related T a') (hb : b.Related T b') :
    Agree (Fault.Related T) (Slot.Related T) (a.merge cat b) (a'.merge cat' b') := by
  have hfault : Fault.Related T (.noCommonType a b) (.noCommonType a' b') := .noCommonType ha hb
  rcases merge_cases cat a b with hn | ⟨s, hs, hn⟩ | ⟨s, t, hs, ht, hsame | ⟨hne, hr⟩ | hapart⟩
  · rw [merge_null_left hn, merge_null_left (ha.ty_eq_none hn), h.slot_isInline hb]
    split
    · exact .error hfault
    · exact .ok hb
  · obtain ⟨s', hs', -⟩ := ha.exists_ty hs
    rw [merge_null_right hs hn, merge_null_right hs' (hb.ty_eq_none hn), h.slot_isInline ha]
    split
    · exact .error hfault
    · exact .ok ha
  · obtain ⟨s', hs', -⟩ := ha.exists_ty hs
    obtain ⟨t', ht', -⟩ := hb.exists_ty ht
    have hsame' := h.slot_equiv (h.slot_weak ha) (h.slot_weak hb) ▸ hsame
    rw [merge_same hs ht hsame, merge_same hs' ht' hsame']
    exact .ok (h.slot_weak ha)
  · obtain ⟨s', hs', -⟩ := ha.exists_ty hs
    obtain ⟨t', ht', -⟩ := hb.exists_ty ht
    have hne' := h.slot_equiv (h.slot_weak ha) (h.slot_weak hb) ▸ hne
    rw [merge_rigid hs ht hne hr,
      merge_rigid hs' ht' hne' (h.slot_isRigid ha ▸ h.slot_isRigid hb ▸ hr)]
    exact .error hfault
  -- a common supertype is looked for, and for arrays one of their elements
  · obtain ⟨s', hs', hss⟩ := ha.exists_ty hs
    obtain ⟨t', ht', htt⟩ := hb.exists_ty ht
    have hapart' := h.apart hapart ha hb hs' ht'
    by_cases harrays : cat.isArray s ∧ cat.isArray t
    · obtain ⟨x, hx⟩ := isArray_iff.1 harrays.1
      obtain ⟨y, hy⟩ := isArray_iff.1 harrays.2
      obtain ⟨x', hx'⟩ := isArray_iff.1 (h.isArray hss ▸ harrays.1)
      obtain ⟨y', hy'⟩ := isArray_iff.1 (h.isArray htt ▸ harrays.2)
      have hxx := h.array hss hx hx'
      have hyy := h.array htt hy hy'
      exact h.merge_arrays hapart hapart' ha hb hx hy hx' hy' hxx hyy
        (slot_merge (related_declared hxx) (related_declared hyy))
    · exact h.merge_named hapart hapart' ha hb hss htt harrays
termination_by (a.ty.map Ty.rank).getD 0
decreasing_by
  simpa [declared, hs] using rank_array_lt hx

/-! ### Stacks -/

variable {a a' b b' : Stack}

lemma stack_accepts (ha : a.Related T a') (hb : b.Related T b') :
    a.accepts cat b = a'.accepts cat' b' := by
  unfold Stack.accepts
  rw [ha.length_eq, hb.length_eq]
  congr 1
  induction ha generalizing b b' with
  | nil => rfl
  | cons hst _ ih =>
    cases hb with
    | nil => rfl
    | cons hcd hb => simp only [List.zip_cons_cons, List.all_cons, h.slot_accepts hst hcd, ih hb]

lemma stack_mergeSlots (ha : a.Related T a') (hb : b.Related T b') :
    Agree (Fault.Related T) (Stack.Related T) (Stack.mergeSlots cat a b)
      (Stack.mergeSlots cat' a' b') := by
  induction ha generalizing b b' with
  | nil => exact .ok .nil
  | cons hst _ ih =>
    cases hb with
    | nil => exact .ok .nil
    | cons hcd hb =>
      exact (ih hb).bind fun _ _ hbelow =>
        (h.slot_merge hst hcd).bind fun _ _ htop => .ok (.cons htop hbelow)

lemma stack_merge (ha : a.Related T a') (hb : b.Related T b') :
    Agree (Fault.Related T) (Stack.Related T) (a.merge cat b) (a'.merge cat' b') := by
  unfold Stack.merge
  rw [ha.length_eq, hb.length_eq]
  split
  · exact h.stack_mergeSlots ha hb
  · exact .error (.plain rfl)

end Catalog.Corresponds

end StackTyping
