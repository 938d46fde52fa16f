import StackTyping.Proofs.Catalog.Correspondence

/-!
Slots of related types.

Two slots are related if their flags are equal and their types are related. The questions that the
rules ask of a slot then have one answer for both, as far as their types answer alike. Equivalent
slots are the slots of equivalent types.
-/

namespace StackTyping

namespace Slot

variable {T : Ty → Ty → Prop} {cat cat' : Catalog} {a a' b b' : Slot} {s t : Ty}

structure Related (T : Ty → Ty → Prop) (a b : Slot) : Prop where
  boxed : a.boxed = b.boxed
  ty : Option.Rel T a.ty b.ty

lemma related_null : null.Related T null := ⟨rfl, .none⟩

lemma related_declared (h : T s t) : (declared s).Related T (declared t) := ⟨rfl, .some h⟩

lemma related_self (h : ∀ t ∈ a.ty, T t t) : a.Related T a := by
  obtain ⟨_ | t, x⟩ := a
  · exact ⟨rfl, .none⟩
  · exact ⟨rfl, .some (h t rfl)⟩

namespace Related

lemma eq_of_eq (hT : ∀ s t, T s t → s = t) (h : a.Related T b) : a = b := by
  obtain ⟨s?, x⟩ := a
  obtain ⟨t?, y⟩ := b
  obtain ⟨rfl, hty⟩ := h
  cases hty with
  | none => rfl
  | some hst => rw [hT _ _ hst]

lemma isNull (h : a.Related T b) : a.isNull = b.isNull := isNone_eq_of_rel h.ty

lemma ty_eq_none (h : a.Related T b) (ha : a.ty = none) : b.ty = none := by
  have hty := h.ty
  rw [ha] at hty
  generalize b.ty = t? at hty ⊢
  cases hty
  rfl

lemma exists_ty (h : a.Related T b) (ha : a.ty = some s) : ∃ t, b.ty = some t ∧ T s t := by
  have hty := h.ty
  rw [ha] at hty
  generalize b.ty = t? at hty ⊢
  cases hty with
  | some hst => exact ⟨_, rfl, hst⟩

end Related

end Slot

/-- Stacks of related slots. -/
abbrev Stack.Related (T : Ty → Ty → Prop) (s t : Stack) : Prop := List.Forall₂ (Slot.Related T) s t

lemma Stack.Related.eq_of_eq {T : Ty → Ty → Prop} {s t : Stack} (hT : ∀ s t, T s t → s = t)
    (h : s.Related T t) : s = t :=
  List.forall₂_eq_eq_eq ▸ h.imp fun _ _ => Slot.Related.eq_of_eq hT

/-! ### Kinds -/

namespace Catalog.SameKinds

variable {T : Ty → Ty → Prop} {cat cat' : Catalog} (h : SameKinds T cat cat') {a b : Slot}

include h

lemma boxedOf {s t : Ty} (hst : T s t) :
    (Slot.boxedOf cat s).Related T (Slot.boxedOf cat' t) := ⟨h.isBoxable hst, .some hst⟩

variable (hab : a.Related T b)
include hab

lemma slot_isInline : a.isInline cat = b.isInline cat' := by
  rw [Slot.isInline, Slot.isInline, Slot.isBoxable, Slot.isBoxable, hab.boxed,
    any_eq_of_rel hab.ty fun _ _ => h.isBoxable]

lemma slot_isPointer : a.isPointer cat = b.isPointer cat' :=
  any_eq_of_rel hab.ty fun _ _ => h.isPointer

lemma slot_isArray : a.isArray cat = b.isArray cat' :=
  any_eq_of_rel hab.ty fun _ _ => h.isArray

lemma slot_isVoid : a.isVoid cat = b.isVoid cat' :=
  any_eq_of_rel hab.ty fun _ _ => h.isVoid

lemma slot_isRigid : a.isRigid cat = b.isRigid cat' := by
  rw [Slot.isRigid, Slot.isRigid, h.slot_isInline hab, h.slot_isPointer hab, h.slot_isVoid hab]

lemma slot_isReference : a.isReference cat = b.isReference cat' := by
  obtain ⟨s?, x⟩ := a
  obtain ⟨t?, y⟩ := b
  obtain ⟨rfl, hty⟩ := hab
  cases hty with
  | none => rfl
  | some hst => simp only [Slot.isReference, h.isBoxable hst, h.isExact hst]

lemma slot_primitive? : a.primitive? cat = b.primitive? cat' := by
  obtain ⟨s?, x⟩ := a
  obtain ⟨t?, y⟩ := b
  obtain ⟨rfl, hty⟩ := hab
  cases hty with
  | none => rfl
  | some hst => simp only [Slot.primitive?, Option.bind_some, h.primitive? hst]

lemma slot_category? : a.category? cat = b.category? cat' := by
  rw [Slot.category?, Slot.category?, h.slot_primitive? hab]

lemma slot_element? : Option.Rel T (a.element? cat) (b.element? cat') := by
  obtain ⟨s?, x⟩ := a
  obtain ⟨t?, y⟩ := b
  obtain ⟨-, hty⟩ := hab
  cases hty with
  | none => exact .none
  | some hst => exact h.element? hst

end Catalog.SameKinds

/-! ### Passing and storing -/

namespace Catalog.Corresponds

variable {T : Ty → Ty → Prop} {cat cat' : Catalog} (h : Corresponds T cat cat')
  {a a' b b' : Slot}
include h

lemma slot_text (hab : a.Related T b) : a.text cat = b.text cat' := by
  obtain ⟨s?, x⟩ := a
  obtain ⟨t?, y⟩ := b
  obtain ⟨rfl, hty⟩ := hab
  cases hty with
  | none => rfl
  | some hst => simp only [Slot.text, h.nameOf _ _ hst]

lemma slot_ofPrimitive (p : Primitive) : (Slot.ofPrimitive p).Related T (.ofPrimitive p) :=
  Slot.related_declared (h.ofPrimitive p)

lemma slot_strong (hab : a.Related T b) : (a.strong cat).Related T (b.strong cat') := by
  rw [Slot.strong, Slot.strong, h.slot_primitive? hab]
  split
  · exact h.slot_ofPrimitive _
  · exact hab

lemma slot_weak (hab : a.Related T b) : (a.weak cat).Related T (b.weak cat') := by
  rw [Slot.weak, Slot.weak, h.slot_primitive? hab]
  split
  · exact h.slot_ofPrimitive _
  · exact hab

lemma slot_equiv (ha : a.Related T a') (hb : b.Related T b') :
    a.equiv cat b = a'.equiv cat' b' := by
  obtain ⟨s?, x⟩ := a
  obtain ⟨s?', x'⟩ := a'
  obtain ⟨t?, y⟩ := b
  obtain ⟨t?', y'⟩ := b'
  obtain ⟨rfl, hs⟩ := ha
  obtain ⟨rfl, ht⟩ := hb
  cases hs with
  | none => cases ht <;> rfl
  | some hs =>
    cases ht with
    | none => rfl
    | some ht => simp only [Slot.equiv, h.equiv _ _ _ _ hs ht]

lemma slot_accepts (ha : a.Related T a') (hb : b.Related T b') :
    a.accepts cat b = a'.accepts cat' b' := by
  unfold Slot.accepts
  dsimp only
  replace ha := h.slot_strong ha
  replace hb := h.slot_strong hb
  rw [h.slot_equiv ha hb, h.slot_isInline ha, h.slot_isInline hb]
  have hs := ha.ty
  have ht := hb.ty
  generalize (a.strong cat).ty = s?, (a'.strong cat').ty = s?' at hs ⊢
  generalize (b.strong cat).ty = t?, (b'.strong cat').ty = t?' at ht ⊢
  cases hs with
  | none => rfl
  | some hs =>
    cases ht with
    | none => rfl
    | some ht =>
      dsimp only
      rw [h.subtype _ _ _ _ ht hs]

lemma slot_stores (ha : a.Related T a') (hb : b.Related T b') :
    a.stores cat b = a'.stores cat' b' := by
  rw [Slot.stores, Slot.stores, h.slot_primitive? ha, h.slot_accepts ha hb,
    h.slot_equiv (h.slot_weak ha) (h.slot_weak hb)]

end Catalog.Corresponds

/-! ### Equivalent slots -/

namespace Slot

variable {cat : Catalog} {a a' b b' c : Slot} {s t : Ty}

lemma equiv_iff_related : a.equiv cat b ↔ a.Related (fun s t => cat.equiv s t) b := by
  obtain ⟨s?, x⟩ := a
  obtain ⟨t?, y⟩ := b
  constructor
  · intro h
    obtain ⟨hxy, hst⟩ := Bool.and_eq_true_iff.1 h
    refine ⟨beq_iff_eq.1 hxy, ?_⟩
    cases s? with
    | none =>
      cases t? with
      | none => exact .none
      | some t => cases hst
    | some s =>
      cases t? with
      | none => cases hst
      | some t => exact .some hst
  · rintro ⟨hxy, hst⟩
    refine Bool.and_eq_true_iff.2 ⟨beq_iff_eq.2 hxy, ?_⟩
    cases hst with
    | none => rfl
    | some hst => exact hst

lemma equiv_iff : a.equiv cat b ↔ a.boxed = b.boxed ∧
    (a.ty = none ∧ b.ty = none ∨ ∃ s t, a.ty = some s ∧ b.ty = some t ∧ cat.equiv s t) := by
  obtain ⟨_ | s, x⟩ := a <;> obtain ⟨_ | t, y⟩ := b <;> simp [equiv]

@[simp] lemma equiv_refl (a : Slot) : a.equiv cat a := by
  obtain ⟨_ | s, x⟩ := a <;> simp [equiv]

lemma equiv_symm (h : a.equiv cat b) : b.equiv cat a := by
  obtain ⟨hx, ⟨ha, hb⟩ | ⟨s, t, ha, hb, hst⟩⟩ := equiv_iff.1 h
  · exact equiv_iff.2 ⟨hx.symm, Or.inl ⟨hb, ha⟩⟩
  · exact equiv_iff.2 ⟨hx.symm, Or.inr ⟨t, s, hb, ha, Catalog.equiv_symm hst⟩⟩

lemma equiv_trans (h : a.equiv cat b) (h' : b.equiv cat c) : a.equiv cat c := by
  obtain ⟨hx, ⟨ha, hb⟩ | ⟨s, t, ha, hb, hst⟩⟩ := equiv_iff.1 h <;>
    obtain ⟨hx', ⟨hb', hc⟩ | ⟨t', u, hb', hc, htu⟩⟩ := equiv_iff.1 h'
  · exact equiv_iff.2 ⟨hx.trans hx', Or.inl ⟨ha, hc⟩⟩
  · rw [hb] at hb'; cases hb'
  · rw [hb] at hb'; cases hb'
  · rw [hb] at hb'
    cases hb'
    exact equiv_iff.2 ⟨hx.trans hx', Or.inr ⟨s, u, ha, hc, Catalog.equiv_trans hst htu⟩⟩

lemma equiv_congr (ha : a.equiv cat a') (hb : b.equiv cat b') :
    a.equiv cat b = a'.equiv cat b' := by
  rw [Bool.eq_iff_iff]
  constructor
  · intro hab
    exact equiv_trans (equiv_symm ha) (equiv_trans hab hb)
  · intro hab
    exact equiv_trans ha (equiv_trans hab (equiv_symm hb))

lemma equiv_declared_iff : (declared s).equiv cat (declared t) ↔ cat.equiv s t := by
  simp [equiv, declared]

lemma isNull_congr (h : a.equiv cat b) : a.isNull = b.isNull := (equiv_iff_related.1 h).isNull

lemma isInline_congr (h : a.equiv cat b) : a.isInline cat = b.isInline cat :=
  (Catalog.sameKinds_equiv cat).slot_isInline (equiv_iff_related.1 h)

lemma isPointer_congr (h : a.equiv cat b) : a.isPointer cat = b.isPointer cat :=
  (Catalog.sameKinds_equiv cat).slot_isPointer (equiv_iff_related.1 h)

lemma isRigid_congr (h : a.equiv cat b) : a.isRigid cat = b.isRigid cat :=
  (Catalog.sameKinds_equiv cat).slot_isRigid (equiv_iff_related.1 h)

lemma isReference_congr (h : a.equiv cat b) : a.isReference cat = b.isReference cat :=
  (Catalog.sameKinds_equiv cat).slot_isReference (equiv_iff_related.1 h)

lemma primitive?_congr (h : a.equiv cat b) : a.primitive? cat = b.primitive? cat :=
  (Catalog.sameKinds_equiv cat).slot_primitive? (equiv_iff_related.1 h)

lemma weak_congr (h : a.equiv cat b) : (a.weak cat).equiv cat (b.weak cat) := by
  rw [weak, weak, primitive?_congr h]
  split
  · exact equiv_refl _
  · exact h

end Slot

end StackTyping
