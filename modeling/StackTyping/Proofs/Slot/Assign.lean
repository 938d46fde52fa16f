import StackTyping.Proofs.Catalog.Subtype
import StackTyping.Proofs.Slot.Related

/-!
Passing and storing values in a grown catalog.

The two representatives of a number only ever replace one inline primitive by another, so every
slot is either one of these fourteen or its own representative. A number is then accepted by
those of its machine size and stored in those of its width; everything else is stored wherever
it is accepted. Both relations are transitive where the top class has no interfaces.
-/

namespace StackTyping

variable {cat : Catalog}

lemma Primitive.strong_eq_of_weak_eq {p q : Primitive} (h : q.weak = p.weak) :
    q.strong = p.strong := by
  calc q.strong = q.weak.strong := (strong_weak q).symm
    _ = p.weak.strong := by rw [h]
    _ = p.strong := strong_weak p

namespace Slot

/-- The boxed flag is set on value types and enumerations only. -/
def WellBoxed (cat : Catalog) (a : Slot) : Prop := a.boxed → a.isBoxable cat

instance (cat : Catalog) (a : Slot) : Decidable (a.WellBoxed cat) :=
  inferInstanceAs (Decidable (_ → _))

/-- The first slot could store the second, or both are `null` whatever their flags. -/
def Covers (cat : Catalog) (a b : Slot) : Prop := a.stores cat b ∨ a.ty = none ∧ b.ty = none

variable {a b c : Slot} {p q : Primitive}

lemma Covers.stores {t : Ty} (hab : a.Covers cat b) (ha : a.ty = some t) : a.stores cat b := by
  rcases hab with hab | ⟨hn, -⟩
  · exact hab
  · rw [ha] at hn
    cases hn

lemma wellBoxed_declared (t : Ty) : (declared t).WellBoxed cat := fun h => by cases h

lemma wellBoxed_null : null.WellBoxed cat := fun h => by cases h

lemma wellBoxed_boxedOf (t : Ty) : (boxedOf cat t).WellBoxed cat := fun h => h

lemma eq_null (ha : a.WellBoxed cat) (ht : a.ty = none) : a = null := by
  obtain ⟨ty, boxed⟩ := a
  cases boxed with
  | false =>
    cases ht
    rfl
  | true =>
    cases ht
    exact absurd (ha rfl) (by simp [isBoxable])

lemma isInline_declared (t : Ty) : (declared t).isInline cat = cat.isBoxable t := by
  simp [isInline, isBoxable, declared]

lemma isInline_boxedOf (t : Ty) : (boxedOf cat t).isInline cat = false := by
  simp [isInline, isBoxable, boxedOf]

lemma isInline_of_none (ha : a.ty = none) : a.isInline cat = false := by
  simp [isInline, isBoxable, ha]

/-! ### Representatives of numbers -/

lemma strong_of_none (h : a.primitive? cat = none) : a.strong cat = a := by
  rw [strong, h]

lemma weak_of_none (h : a.primitive? cat = none) : a.weak cat = a := by
  rw [weak, h]

lemma ofPrimitive_injective : Function.Injective ofPrimitive := by
  intro p q h
  have h : EntryId.ofPrimitive p = EntryId.ofPrimitive q :=
    Ty.entry.inj (Option.some.inj (congrArg Slot.ty h))
  cases p <;> cases q <;> first | rfl | exact absurd h (by decide)

end Slot

namespace Catalog.Lawful

open Slot

variable (h : Lawful cat) {a b c : Slot} {p q : Primitive} {s t : Ty}
include h

lemma primitive?_ofPrimitive (p : Primitive) : (ofPrimitive p).primitive? cat = some p := by
  simp [Slot.primitive?, ofPrimitive, declared, Catalog.primitive?, h.kind_ofPrimitive,
    Kind.primitive?]

lemma primitive?_eq_some_iff : a.primitive? cat = some p ↔ a = ofPrimitive p := by
  constructor
  · intro hp
    obtain ⟨_ | s, _ | _⟩ := a
    · cases hp
    · cases hp
    · have hp : (cat.kind s).primitive? = some p := hp
      cases hk : cat.kind s with
      | valueType q? =>
        rw [hk, Kind.primitive?] at hp
        rw [hp] at hk
        rw [h.primitive s p hk]
        rfl
      | _ => rw [hk] at hp; cases hp
    · cases hp
  · rintro rfl
    exact h.primitive?_ofPrimitive p

@[simp] lemma strong_ofPrimitive (p : Primitive) :
    (ofPrimitive p).strong cat = ofPrimitive p.strong := by
  rw [strong, h.primitive?_ofPrimitive]

@[simp] lemma weak_ofPrimitive (p : Primitive) :
    (ofPrimitive p).weak cat = ofPrimitive p.weak := by
  rw [weak, h.primitive?_ofPrimitive]

lemma isInline_ofPrimitive (p : Primitive) : (ofPrimitive p).isInline cat = true := by
  rw [ofPrimitive, isInline_declared, Catalog.isBoxable, h.kind_ofPrimitive]
  rfl

lemma element?_ofPrimitive (p : Primitive) : cat.element? (.ofPrimitive p) = none := by
  rw [Catalog.element?, h.kind_ofPrimitive]
  rfl

/-- A slot is a number, or is its own representative. -/
lemma eq_ofPrimitive_or (a : Slot) :
    (∃ p, a = ofPrimitive p) ∨ a.primitive? cat = none := by
  cases hp : a.primitive? cat with
  | none => exact Or.inr rfl
  | some p => exact Or.inl ⟨p, h.primitive?_eq_some_iff.1 hp⟩

lemma primitive?_of_not_inline (ha : a.isInline cat = false) : a.primitive? cat = none := by
  rcases h.eq_ofPrimitive_or a with ⟨p, rfl⟩ | hp
  · rw [h.isInline_ofPrimitive] at ha
    cases ha
  · exact hp

lemma eq_of_equiv_ofPrimitive (ha : a.equiv cat (ofPrimitive p)) : a = ofPrimitive p := by
  obtain ⟨hx, ⟨-, hb⟩ | ⟨s, t, hs, ht, hst⟩⟩ := Slot.equiv_iff.1 ha
  · cases hb
  · cases ht
    obtain rfl := eq_of_equiv hst (h.element?_ofPrimitive p)
    obtain ⟨ty, boxed⟩ := a
    cases hs
    cases hx
    rfl

lemma equiv_ofPrimitive_iff : (ofPrimitive p).equiv cat (ofPrimitive q) ↔ p = q := by
  constructor
  · intro he
    exact ofPrimitive_injective (h.eq_of_equiv_ofPrimitive he)
  · rintro rfl
    exact Slot.equiv_refl _

lemma strong_equiv_ofPrimitive (ha : (a.strong cat).equiv cat (ofPrimitive p)) :
    ∃ q, a = ofPrimitive q ∧ q.strong = p := by
  rcases h.eq_ofPrimitive_or a with ⟨q, rfl⟩ | hn
  · rw [h.strong_ofPrimitive, h.equiv_ofPrimitive_iff] at ha
    exact ⟨q, rfl, ha⟩
  · rw [strong_of_none hn] at ha
    obtain rfl := h.eq_of_equiv_ofPrimitive ha
    rw [h.primitive?_ofPrimitive] at hn
    cases hn

lemma weak_equiv_ofPrimitive (ha : (a.weak cat).equiv cat (ofPrimitive p)) :
    ∃ q, a = ofPrimitive q ∧ q.weak = p := by
  rcases h.eq_ofPrimitive_or a with ⟨q, rfl⟩ | hn
  · rw [h.weak_ofPrimitive, h.equiv_ofPrimitive_iff] at ha
    exact ⟨q, rfl, ha⟩
  · rw [weak_of_none hn] at ha
    obtain rfl := h.eq_of_equiv_ofPrimitive ha
    rw [h.primitive?_ofPrimitive] at hn
    cases hn

/-- Slots of the same width are both numbers, or equivalent. -/
lemma weak_equiv_cases (hab : (a.weak cat).equiv cat (b.weak cat)) :
    (∃ p q, a = ofPrimitive p ∧ b = ofPrimitive q ∧ q.weak = p.weak) ∨
      a.primitive? cat = none ∧ b.primitive? cat = none ∧ a.equiv cat b := by
  rcases h.eq_ofPrimitive_or a with ⟨p, rfl⟩ | ha
  · rw [h.weak_ofPrimitive] at hab
    obtain ⟨q, rfl, hq⟩ := h.weak_equiv_ofPrimitive (Slot.equiv_symm hab)
    exact Or.inl ⟨p, q, rfl, rfl, hq⟩
  · rw [weak_of_none ha] at hab
    rcases h.eq_ofPrimitive_or b with ⟨q, rfl⟩ | hb
    · rw [h.weak_ofPrimitive] at hab
      rw [h.eq_of_equiv_ofPrimitive hab, h.primitive?_ofPrimitive] at ha
      cases ha
    · rw [weak_of_none hb] at hab
      exact Or.inr ⟨ha, hb, hab⟩

lemma strong_equiv_of_weak_equiv (hab : (a.weak cat).equiv cat (b.weak cat)) :
    (a.strong cat).equiv cat (b.strong cat) := by
  rcases h.weak_equiv_cases hab with ⟨p, q, rfl, rfl, hq⟩ | ⟨ha, hb, hab⟩
  · rw [h.strong_ofPrimitive, h.strong_ofPrimitive, Primitive.strong_eq_of_weak_eq hq]
    exact Slot.equiv_refl _
  · rwa [strong_of_none ha, strong_of_none hb]

/-! ### Passing -/

/-- **Passing**: representatives agree, or a reference takes `null` or a subtype. -/
lemma accepts_iff : a.accepts cat b ↔ (a.strong cat).equiv cat (b.strong cat) ∨
    ∃ t, a.ty = some t ∧ a.isInline cat = false ∧
      (b.ty = none ∨ ∃ s, b.ty = some s ∧ b.isInline cat = false ∧ cat.subtype s t) := by
  rw [accepts, Bool.or_eq_true]
  rcases h.eq_ofPrimitive_or a with ⟨p, rfl⟩ | ha
  · rw [h.strong_ofPrimitive]
    simp only [h.isInline_ofPrimitive]
    obtain ⟨_ | s, x⟩ := b.strong cat <;> simp [ofPrimitive, declared]
  · rw [strong_of_none ha]
    rcases h.eq_ofPrimitive_or b with ⟨q, rfl⟩ | hb
    · rw [h.strong_ofPrimitive]
      simp only [h.isInline_ofPrimitive]
      obtain ⟨_ | t, x⟩ := a <;> simp [ofPrimitive, declared]
    · rw [strong_of_none hb]
      obtain ⟨_ | t, x⟩ := a <;> obtain ⟨_ | s, y⟩ := b <;> simp [and_assoc]

lemma strong_equiv_of_equiv (hab : a.equiv cat b) : (a.strong cat).equiv cat (b.strong cat) := by
  rcases h.eq_ofPrimitive_or b with ⟨q, rfl⟩ | hb
  · rw [h.eq_of_equiv_ofPrimitive hab]
    exact Slot.equiv_refl _
  · rcases h.eq_ofPrimitive_or a with ⟨p, rfl⟩ | ha
    · rw [h.eq_of_equiv_ofPrimitive (Slot.equiv_symm hab), h.primitive?_ofPrimitive] at hb
      cases hb
    · rwa [strong_of_none ha, strong_of_none hb]

lemma accepts_of_equiv (hab : a.equiv cat b) : a.accepts cat b :=
  h.accepts_iff.2 (Or.inl (h.strong_equiv_of_equiv hab))

lemma accepts_refl (a : Slot) : a.accepts cat a := h.accepts_of_equiv (Slot.equiv_refl a)

lemma accepts_of_subtype (ha : a.ty = some t) (hia : a.isInline cat = false) (hb : b.ty = some s)
    (hib : b.isInline cat = false) (hst : cat.subtype s t) : a.accepts cat b :=
  h.accepts_iff.2 (Or.inr ⟨t, ha, hia, Or.inr ⟨s, hb, hib, hst⟩⟩)

/-- Slots with equivalent strong forms are equivalent, unless they are numbers. -/
lemma equiv_of_strong_equiv (hab : (a.strong cat).equiv cat (b.strong cat))
    (hb : b.isInline cat = false) : a.equiv cat b := by
  rw [strong_of_none (h.primitive?_of_not_inline hb)] at hab
  rcases h.eq_ofPrimitive_or a with ⟨p, rfl⟩ | ha
  · rw [h.strong_ofPrimitive] at hab
    rw [← Slot.isInline_congr hab, h.isInline_ofPrimitive] at hb
    cases hb
  · rwa [strong_of_none ha] at hab

/-- What is accepted and not inline has a subtype. -/
lemma subtype_of_accepts (hab : a.accepts cat b) (ha : a.ty = some t) (hb : b.ty = some s)
    (hib : b.isInline cat = false) : cat.subtype s t := by
  rcases h.accepts_iff.1 hab with he | ⟨t', ht', -, hnull | ⟨s', hs', -, hst⟩⟩
  · obtain ⟨-, ⟨hn, -⟩ | ⟨t', s', ht', hs', hst⟩⟩ :=
      Slot.equiv_iff.1 (h.equiv_of_strong_equiv he hib)
    · rw [ha] at hn; cases hn
    · rw [ha] at ht'
      rw [hb] at hs'
      cases ht'
      cases hs'
      exact subtype_of_equiv (Catalog.equiv_symm hst)
  · rw [hb] at hnull; cases hnull
  · rw [ha] at ht'
    rw [hb] at hs'
    cases ht'
    cases hs'
    exact hst

/-- Passing does not tell locations of one machine size apart. -/
lemma accepts_of_strong_equiv (hab : (a.strong cat).equiv cat (b.strong cat))
    (hbc : b.accepts cat c) : a.accepts cat c := by
  rw [h.accepts_iff]
  rcases h.accepts_iff.1 hbc with he | ⟨s, hs, hib, hc⟩
  · exact Or.inl (Slot.equiv_trans hab he)
  · -- `b` takes references, so `a` is equivalent to it
    have hab := h.equiv_of_strong_equiv hab hib
    obtain ⟨-, ⟨-, hn⟩ | ⟨t, s', ht, hs', hts⟩⟩ := Slot.equiv_iff.1 hab
    · rw [hs] at hn; cases hn
    · rw [hs] at hs'
      cases hs'
      refine Or.inr ⟨t, ht, by rw [Slot.isInline_congr hab, hib], ?_⟩
      rcases hc with hc | ⟨r, hr, hic, hrs⟩
      · exact Or.inl hc
      · exact Or.inr ⟨r, hr, hic, h.subtype_of_equiv_right hrs (Catalog.equiv_symm hts)⟩

/-- **Passing is transitive** where the top class has no interfaces of its own. -/
theorem accepts_trans (hobj : cat.implements.targets EntryId.object = [])
    (hab : a.accepts cat b) (hbc : b.accepts cat c) : a.accepts cat c := by
  rcases h.accepts_iff.1 hab with he | ⟨t, ht, hia, hb⟩
  · exact h.accepts_of_strong_equiv he hbc
  rw [h.accepts_iff]
  rcases h.accepts_iff.1 hbc with he' | ⟨s, hs, hib, hc⟩
  · -- `b` is no number, so `c` is equivalent to it
    refine Or.inr ⟨t, ht, hia, ?_⟩
    have hib : b.isInline cat = false := by
      rcases hb with hb | ⟨s, -, hib, -⟩
      · exact isInline_of_none hb
      · exact hib
    have hcb := h.equiv_of_strong_equiv (Slot.equiv_symm he') hib
    obtain ⟨-, ⟨hc, -⟩ | ⟨r, s, hr, hs, hrs⟩⟩ := Slot.equiv_iff.1 hcb
    · exact Or.inl hc
    · rcases hb with hb | ⟨s', hs', -, hst⟩
      · rw [hs] at hb; cases hb
      · rw [hs] at hs'
        cases hs'
        exact Or.inr ⟨r, hr, by rw [Slot.isInline_congr hcb, hib],
          h.subtype_trans hobj (subtype_of_equiv hrs) hst⟩
  · refine Or.inr ⟨t, ht, hia, ?_⟩
    rcases hb with hb | ⟨s', hs', -, hst⟩
    · rw [hs] at hb; cases hb
    · rw [hs] at hs'
      cases hs'
      rcases hc with hc | ⟨r, hr, hic, hrs⟩
      · exact Or.inl hc
      · exact Or.inr ⟨r, hr, hic, h.subtype_trans hobj hrs hst⟩

lemma accepts_ofPrimitive_iff :
    (ofPrimitive p).accepts cat b ↔ ∃ q, b = ofPrimitive q ∧ q.strong = p.strong := by
  rw [h.accepts_iff, h.strong_ofPrimitive]
  constructor
  · rintro (he | ⟨_, -, hi, -⟩)
    · exact h.strong_equiv_ofPrimitive (Slot.equiv_symm he)
    · rw [h.isInline_ofPrimitive] at hi
      cases hi
  · rintro ⟨q, rfl, hq⟩
    rw [h.strong_ofPrimitive, hq]
    exact Or.inl (Slot.equiv_refl _)

/-! ### Storing -/

lemma stores_ofPrimitive_iff :
    (ofPrimitive p).stores cat b ↔ ∃ q, b = ofPrimitive q ∧ q.weak = p.weak := by
  rw [stores, h.primitive?_ofPrimitive, if_pos Option.isSome_some, h.weak_ofPrimitive]
  constructor
  · intro he
    exact h.weak_equiv_ofPrimitive (Slot.equiv_symm he)
  · rintro ⟨q, rfl, hq⟩
    rw [h.weak_ofPrimitive, hq]
    exact Slot.equiv_refl _

omit h in
/-- Where no number is stored, storing is passing. -/
lemma stores_of_none (ha : a.primitive? cat = none) : a.stores cat b = a.accepts cat b := by
  rw [stores, ha]
  rfl

lemma accepts_of_stores (hab : a.stores cat b) : a.accepts cat b := by
  rcases h.eq_ofPrimitive_or a with ⟨p, rfl⟩ | ha
  · obtain ⟨q, rfl, hq⟩ := h.stores_ofPrimitive_iff.1 hab
    exact h.accepts_ofPrimitive_iff.2 ⟨q, rfl, Primitive.strong_eq_of_weak_eq hq⟩
  · rwa [stores_of_none ha] at hab

lemma stores_of_equiv (hab : a.equiv cat b) : a.stores cat b := by
  rcases h.eq_ofPrimitive_or a with ⟨p, rfl⟩ | ha
  · rw [h.eq_of_equiv_ofPrimitive (Slot.equiv_symm hab)]
    exact h.stores_ofPrimitive_iff.2 ⟨p, rfl, rfl⟩
  · rw [stores_of_none ha]
    exact h.accepts_of_equiv hab

lemma stores_refl (a : Slot) : a.stores cat a := h.stores_of_equiv (Slot.equiv_refl a)

/-- **Storing is transitive** where the top class has no interfaces of its own. -/
theorem stores_trans (hobj : cat.implements.targets EntryId.object = [])
    (hab : a.stores cat b) (hbc : b.stores cat c) : a.stores cat c := by
  rcases h.eq_ofPrimitive_or a with ⟨p, rfl⟩ | ha
  · obtain ⟨q, rfl, hq⟩ := h.stores_ofPrimitive_iff.1 hab
    obtain ⟨r, rfl, hr⟩ := h.stores_ofPrimitive_iff.1 hbc
    exact h.stores_ofPrimitive_iff.2 ⟨r, rfl, hr.trans hq⟩
  · rw [stores_of_none ha] at hab ⊢
    exact h.accepts_trans hobj hab (h.accepts_of_stores hbc)

/-! ### Covering -/

/-- What is not an inline value covers `null`. -/
lemma covers_of_none (hia : a.isInline cat = false) (hb : b.ty = none) : a.Covers cat b := by
  cases ha : a.ty with
  | none => exact Or.inr ⟨ha, hb⟩
  | some t =>
    refine Or.inl ?_
    rw [stores_of_none (h.primitive?_of_not_inline hia)]
    exact h.accepts_iff.2 (Or.inr ⟨t, ha, hia, Or.inl hb⟩)

lemma ty_eq_none_of_stores (hab : a.stores cat b) (ha : a.ty = none) : b.ty = none := by
  have hia : a.isInline cat = false := isInline_of_none ha
  rw [stores_of_none (h.primitive?_of_not_inline hia)] at hab
  rcases h.accepts_iff.1 hab with he | ⟨t, ht, -⟩
  · have hba := h.equiv_of_strong_equiv (Slot.equiv_symm he) hia
    obtain ⟨-, ⟨hb, -⟩ | ⟨_, t, -, ht, -⟩⟩ := Slot.equiv_iff.1 hba
    · exact hb
    · rw [ha] at ht
      cases ht
  · rw [ha] at ht
    cases ht

lemma not_inline_of_stores (hab : a.stores cat b) (hb : b.ty = none) :
    a.isInline cat = false := by
  have hib : b.isInline cat = false := isInline_of_none hb
  rcases h.accepts_iff.1 (h.accepts_of_stores hab) with he | ⟨_, -, hia, -⟩
  · rw [Slot.isInline_congr (h.equiv_of_strong_equiv he hib), hib]
  · exact hia

/-- **Covering is transitive** where the top class has no interfaces of its own. -/
lemma covers_trans (hobj : cat.implements.targets EntryId.object = []) (hab : a.Covers cat b)
    (hbc : b.Covers cat c) : a.Covers cat c := by
  rcases hab with hab | ⟨ha, hb⟩ <;> rcases hbc with hbc | ⟨hb', hc⟩
  · exact Or.inl (h.stores_trans hobj hab hbc)
  · exact h.covers_of_none (h.not_inline_of_stores hab hb') hc
  · exact Or.inr ⟨ha, h.ty_eq_none_of_stores hbc hb⟩
  · exact Or.inr ⟨ha, hc⟩

lemma accepts_of_covers (ha : a.WellBoxed cat) (hb : b.WellBoxed cat) (hab : a.Covers cat b) :
    a.accepts cat b := by
  rcases hab with hab | ⟨hta, htb⟩
  · exact h.accepts_of_stores hab
  · rw [eq_null ha hta, eq_null hb htb]
    exact h.accepts_refl null

end Catalog.Lawful

end StackTyping
