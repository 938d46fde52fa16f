import StackTyping.Proofs.Slot.Assign

/-!
Putting a subtype in the place of a type.

A slot is narrowed by an equivalent one or, if both hold objects, by one that it takes. Numbers and
pointers are therefore narrowed by equivalent ones only, and an array by an array whose elements
narrow its own. Whatever the rules ask of a slot has the same answer for a slot that narrows it, and
whatever takes the first takes the second.
-/

namespace StackTyping

namespace Slot

variable {cat : Catalog} {a b : Slot} {s t : Ty}

/-! ### Equivalent slots -/

lemma element?_of_isNull (h : a.isNull) : a.element? cat = none := by
  rw [element?, Option.isNone_iff_eq_none.1 h, Option.bind_none]

lemma exists_element?_of_equiv (h : a.equiv cat b) (hs : a.element? cat = some s) :
    ∃ t, b.element? cat = some t ∧ cat.equiv s t := by
  obtain ⟨-, ⟨ha, -⟩ | ⟨u, v, ha, hb, huv⟩⟩ := equiv_iff.1 h
  · rw [element?, ha] at hs
    cases hs
  · rw [element?, ha, Option.bind_some] at hs
    rw [element?, hb, Option.bind_some]
    rcases Catalog.equiv_cases huv with rfl | ⟨x, y, hx, hy, hxy⟩ | ⟨x, y, hx, hy, hxy⟩
    · exact ⟨s, hs, Catalog.equiv_refl s⟩
    · rw [Catalog.element?, hx] at hs
      cases hs
      exact ⟨y, by rw [Catalog.element?, hy]; rfl, hxy⟩
    · rw [Catalog.element?, hx] at hs
      cases hs
      exact ⟨y, by rw [Catalog.element?, hy]; rfl, hxy⟩

/-! ### Objects -/

/-- The slot holds a reference to an object: neither `null` nor an inline value, a pointer or
void. -/
def IsObject (cat : Catalog) (a : Slot) : Prop :=
  ∃ t, a.ty = some t ∧ a.isInline cat = false ∧ cat.isExact t = false

/-- A reference that is not `null` refers to an object, if its boxed flag is where it belongs. -/
lemma isObject_of_isReference (ha : a.WellBoxed cat) (hnull : a.isNull = false)
    (href : a.isReference cat) : a.IsObject cat := by
  obtain ⟨_ | t, boxed⟩ := a
  · cases hnull
  refine ⟨t, rfl, ?_⟩
  cases boxed with
  | true =>
    have hbox : cat.isBoxable t := ha rfl
    exact ⟨by simp [isInline], Catalog.isExact_of_isBoxable hbox⟩
  | false =>
    simp only [isReference, Bool.false_or, Bool.not_eq_true', Bool.or_eq_false_iff] at href
    exact ⟨by simp [isInline, isBoxable, href.1], href.2⟩

lemma isObject_declared (h : cat.isReferenceElement t) : (declared t).IsObject cat := by
  simp only [Catalog.isReferenceElement, Bool.and_eq_true, Bool.not_eq_true'] at h
  exact ⟨t, rfl, (isInline_declared t).trans h.1, h.2⟩

namespace IsObject

lemma isInline_eq (h : a.IsObject cat) : a.isInline cat = false := by
  obtain ⟨t, -, hinline, -⟩ := h
  exact hinline

lemma isNull_eq (h : a.IsObject cat) : a.isNull = false := by
  obtain ⟨t, ht, -, -⟩ := h
  simp [isNull, ht]

lemma isPointer_eq (h : a.IsObject cat) : a.isPointer cat = false := by
  obtain ⟨t, ht, -, hexact⟩ := h
  rw [Catalog.isExact, Bool.or_eq_false_iff] at hexact
  simp [isPointer, ht, hexact.1]

lemma isReference_eq (h : a.IsObject cat) : a.isReference cat = true := by
  obtain ⟨t, ht, hinline, hexact⟩ := h
  simp only [isInline, isBoxable, ht, Option.any_some, Bool.and_eq_false_iff,
    Bool.not_eq_false'] at hinline
  rcases hinline with hbox | hboxed
  · simp [isReference, ht, hbox, hexact]
  · simp [isReference, ht, hboxed]

end IsObject

/-! ### Narrowing -/

/-- The second slot may stand where the first is expected: it is equivalent, or both hold objects
and the first takes the second. -/
def Narrows (cat : Catalog) (a b : Slot) : Prop :=
  a.equiv cat b ∨ a.IsObject cat ∧ b.IsObject cat ∧ a.accepts cat b

/-- The second slot is the same as the first, or both are references other than `null` and the
first takes the second. -/
def Substitutes (cat : Catalog) (a b : Slot) : Prop :=
  a.equiv cat b ∨ a.isNull = false ∧ b.isNull = false ∧ a.isReference cat ∧ b.isReference cat ∧
    a.accepts cat b

/-- A flag that is where it belongs tells references from pointers. -/
lemma Substitutes.narrows (hab : a.Substitutes cat b) (ha : a.WellBoxed cat)
    (hb : b.WellBoxed cat) : a.Narrows cat b := by
  rcases hab with heq | ⟨hna, hnb, hra, hrb, hacc⟩
  · exact Or.inl heq
  · exact Or.inr ⟨isObject_of_isReference ha hna hra, isObject_of_isReference hb hnb hrb, hacc⟩

namespace Narrows

lemma refl (a : Slot) : a.Narrows cat a := Or.inl (equiv_refl a)

lemma isInline_eq (hab : a.Narrows cat b) : a.isInline cat = b.isInline cat := by
  rcases hab with heq | ⟨ha, hb, -⟩
  · exact isInline_congr heq
  · rw [ha.isInline_eq, hb.isInline_eq]

lemma isNull_eq (hab : a.Narrows cat b) : a.isNull = b.isNull := by
  rcases hab with heq | ⟨ha, hb, -⟩
  · exact isNull_congr heq
  · rw [ha.isNull_eq, hb.isNull_eq]

lemma isPointer_eq (hab : a.Narrows cat b) : a.isPointer cat = b.isPointer cat := by
  rcases hab with heq | ⟨ha, hb, -⟩
  · exact isPointer_congr heq
  · rw [ha.isPointer_eq, hb.isPointer_eq]

lemma isReference_eq (hab : a.Narrows cat b) : a.isReference cat = b.isReference cat := by
  rcases hab with heq | ⟨ha, hb, -⟩
  · exact isReference_congr heq
  · rw [ha.isReference_eq, hb.isReference_eq]

lemma equiv_of_isInline (hab : a.Narrows cat b) (ha : a.isInline cat) : a.equiv cat b := by
  rcases hab with heq | ⟨hobject, -, -⟩
  · exact heq
  · rw [hobject.isInline_eq] at ha
    cases ha

lemma equiv_of_isPointer (hab : a.Narrows cat b) (ha : a.isPointer cat) : a.equiv cat b := by
  rcases hab with heq | ⟨hobject, -, -⟩
  · exact heq
  · rw [hobject.isPointer_eq] at ha
    cases ha

lemma isBoxable_eq (hst : (declared s).Narrows cat (declared t)) :
    cat.isBoxable s = cat.isBoxable t := by
  simpa only [isInline_declared] using hst.isInline_eq

end Narrows

end Slot

namespace Catalog.Lawful

open Slot

variable {cat : Catalog} (h : Lawful cat) {a b e : Slot} {s t : Ty}
include h

lemma primitive?_eq_of_narrows (hab : a.Narrows cat b) :
    a.primitive? cat = b.primitive? cat := by
  rcases hab with heq | ⟨ha, hb, -⟩
  · exact primitive?_congr heq
  · rw [h.primitive?_of_not_inline ha.isInline_eq, h.primitive?_of_not_inline hb.isInline_eq]

lemma category?_eq_of_narrows (hab : a.Narrows cat b) : a.category? cat = b.category? cat := by
  rw [category?, category?, h.primitive?_eq_of_narrows hab]

lemma stores_of_narrows (hab : a.Narrows cat b) : a.stores cat b := by
  rcases hab with heq | ⟨ha, -, hacc⟩
  · exact h.stores_of_equiv heq
  · rwa [stores_of_none (h.primitive?_of_not_inline ha.isInline_eq)]

lemma accepts_of_narrows (hab : a.Narrows cat b) : a.accepts cat b :=
  h.accepts_of_stores (h.stores_of_narrows hab)

lemma accepts_narrowed (hobj : cat.implements.targets EntryId.object = [])
    (hab : a.Narrows cat b) (ha : e.accepts cat a) : e.accepts cat b :=
  h.accepts_trans hobj ha (h.accepts_of_narrows hab)

lemma stores_narrowed (hobj : cat.implements.targets EntryId.object = [])
    (hab : a.Narrows cat b) (ha : e.stores cat a) : e.stores cat b :=
  h.stores_trans hobj ha (h.stores_of_narrows hab)

lemma not_inline_of_accepts (hab : a.accepts cat b) (hb : b.isInline cat = false) :
    a.isInline cat = false := by
  rcases h.accepts_iff.1 hab with he | ⟨_, -, ha, -⟩
  · rw [isInline_congr (h.equiv_of_strong_equiv he hb), hb]
  · exact ha

/-- If one of two declared types is inline and takes the other, then the other is inline too. -/
lemma isBoxable_of_accepts (hst : (declared s).accepts cat (declared t))
    (hbox : cat.isBoxable t || cat.isBoxable s) : cat.isBoxable t := by
  cases ht : cat.isBoxable t with
  | true => rfl
  | false =>
    have hs := h.not_inline_of_accepts hst ((isInline_declared t).trans ht)
    rw [isInline_declared] at hs
    rw [ht, hs] at hbox
    cases hbox

lemma exists_subtype_of_narrows (hab : a.Narrows cat b) (ht : a.ty = some t) :
    ∃ s, b.ty = some s ∧ cat.subtype s t := by
  rcases hab with heq | ⟨-, ⟨s, hs, hinline, -⟩, hacc⟩
  · obtain ⟨-, ⟨ha, -⟩ | ⟨t', s, ht', hs, hts⟩⟩ := Slot.equiv_iff.1 heq
    · rw [ht] at ha
      cases ha
    · rw [ht] at ht'
      cases ht'
      exact ⟨s, hs, subtype_of_equiv (Catalog.equiv_symm hts)⟩
  · exact ⟨s, hs, h.subtype_of_accepts hacc ht hs hinline⟩

/-- **Covariance of arrays**: an array is narrowed by arrays whose elements narrow its own. -/
lemma exists_element?_of_narrows (hab : a.Narrows cat b) (ha : a.isArray cat) :
    b.isArray cat ∧ ∃ x y, a.element? cat = some x ∧ b.element? cat = some y ∧
      (declared x).Narrows cat (declared y) := by
  obtain ⟨t, ht, hta⟩ := (Option.any_eq_true _ _).1 ha
  obtain ⟨s, hs, hst⟩ := h.exists_subtype_of_narrows hab ht
  have hsa := h.isArray_of_subtype hst hta
  obtain ⟨x, hx⟩ := isArray_iff.1 hta
  obtain ⟨y, hy⟩ := isArray_iff.1 hsa
  refine ⟨by simp [Slot.isArray, hs, hsa], x, y, ?_, ?_, ?_⟩
  · rw [Slot.element?, ht, Option.bind_some, Catalog.element?, hx]
    rfl
  · rw [Slot.element?, hs, Option.bind_some, Catalog.element?, hy]
    rfl
  · rcases (subtype_array_iff hy hx).1 hst with heq | ⟨hry, hrx, hsub⟩
    · exact Or.inl (equiv_declared_iff.2 (Catalog.equiv_symm heq))
    · have hox := isObject_declared hrx
      have hoy := isObject_declared hry
      exact Or.inr ⟨hox, hoy,
        h.accepts_of_subtype rfl hox.isInline_eq rfl hoy.isInline_eq hsub⟩

end Catalog.Lawful

end StackTyping
