import StackTyping.Proofs.Slot.Assign

/-!
Passing as an order.

Passing is reflexive and transitive. Two interfaces may extend each other, so it is no partial
order in general; but base links lead to earlier types only, so types that mention no interface
and take each other are the same up to the machine size of numbers.
-/

namespace StackTyping

namespace Ty

/-- The entry that the arrays and pointers of a type are built over. -/
def leaf : Ty → Ty
  | entry i => .entry i
  | array e | pointer e => e.leaf

end Ty

namespace Catalog

variable {cat : Catalog} {s t x : Ty}

/-- The type is an interface, or an array or pointer with one as its innermost element. -/
def mentionsInterface (cat : Catalog) (t : Ty) : Bool := cat.isInterface (cat.expand t).leaf

lemma mentionsInterface_array (h : cat.kind t = .array x) :
    cat.mentionsInterface t = cat.mentionsInterface x := by
  rw [mentionsInterface, mentionsInterface, expand_array h]
  rfl

lemma mentionsInterface_of_kind (h : cat.kind t = .interface) : cat.mentionsInterface t := by
  have he : cat.element? t = none := by rw [element?, h]; rfl
  rw [mentionsInterface, expand_plain he]
  cases t with
  | entry i => exact isInterface_iff.2 h
  | array e => cases h
  | pointer e => cases h

/-! ### No cycles of bases -/

lemma eq_or_rank_lt_of_extends (h : cat.Extends s t) : s = t ∨ t.rank < s.rank := by
  induction h with
  | refl => exact Or.inl rfl
  | tail _ hb ih =>
    have hlt := rank_base?_lt hb
    rcases ih with rfl | ih
    · exact Or.inr hlt
    · exact Or.inr (Nat.lt_trans hlt ih)

lemma eq_of_extends_extends (hst : cat.Extends s t) (hts : cat.Extends t s) : s = t := by
  rcases eq_or_rank_lt_of_extends hst with h | h
  · exact h
  · rcases eq_or_rank_lt_of_extends hts with h' | h'
    · exact h'.symm
    · omega

namespace Lawful

variable (h : Lawful cat)
include h

/-- **Subtyping is antisymmetric away from interfaces**, up to equivalence and where the top class
has no interfaces of its own. -/
theorem subtype_antisymm {s t : Ty} (hobj : cat.implements.targets EntryId.object = [])
    (hs : cat.mentionsInterface s = false) (ht : cat.mentionsInterface t = false)
    (hst : cat.subtype s t) (hts : cat.subtype t s) : cat.equiv s t := by
  by_cases ha : cat.isArray s ∧ cat.isArray t
  · obtain ⟨x, hx⟩ := isArray_iff.1 ha.1
    obtain ⟨y, hy⟩ := isArray_iff.1 ha.2
    rw [equiv_array_iff hx hy]
    rw [mentionsInterface_array hx] at hs
    rw [mentionsInterface_array hy] at ht
    rcases (subtype_array_iff hx hy).1 hst with hxy | ⟨-, -, hxy⟩
    · exact hxy
    · rcases (subtype_array_iff hy hx).1 hts with hyx | ⟨-, -, hyx⟩
      · exact equiv_symm hyx
      · exact subtype_antisymm hobj hs ht hxy hyx
  · have hks : cat.kind s ≠ .interface := fun hk => by
      rw [mentionsInterface_of_kind hk] at hs
      cases hs
    have hkt : cat.kind t ≠ .interface := fun hk => by
      rw [mentionsInterface_of_kind hk] at ht
      cases ht
    rcases (h.subtype_iff ha).1 hst with heq | ⟨-, -, hup⟩
    · exact heq
    rcases (h.subtype_iff fun hts => ha hts.symm).1 hts with heq | ⟨-, -, hdown⟩
    · exact equiv_symm heq
    -- each of the two inherits the other, or is the top class, which inherits nothing else
    have hst : s = t := by
      rcases hup with rfl | hup <;> rcases hdown with rfl | hdown
      · rfl
      · exact h.eq_of_inherits_object hobj hdown
      · exact (h.eq_of_inherits_object hobj hup).symm
      · exact eq_of_extends_extends (h.extends_of_inherits hup hkt)
          (h.extends_of_inherits hdown hks)
    exact hst ▸ equiv_refl _
termination_by s.rank
decreasing_by exact rank_array_lt hx

end Lawful

end Catalog

namespace Slot

variable {cat : Catalog} {a : Slot} {t : Ty}

def mentionsInterface (cat : Catalog) (a : Slot) : Bool := a.ty.any cat.mentionsInterface

lemma boxed_eq_isBoxable (ha : a.WellBoxed cat) (hia : a.isInline cat = false)
    (ht : a.ty = some t) : a.boxed = cat.isBoxable t := by
  have hbox : a.isBoxable cat = cat.isBoxable t := by rw [isBoxable, ht, Option.any_some]
  rw [isInline, hbox] at hia
  unfold WellBoxed at ha
  rw [hbox] at ha
  cases hb : a.boxed with
  | false => simpa [hb] using hia.symm
  | true => exact (ha hb).symm

end Slot

namespace Catalog.Lawful

open Slot

variable {cat : Catalog} {a b : Slot} (h : Lawful cat)
include h

/-- Slots that take each other and mention no interface have one strong form. -/
lemma accepts_antisymm (hobj : cat.implements.targets EntryId.object = []) (ha : a.WellBoxed cat)
    (hb : b.WellBoxed cat) (hna : a.mentionsInterface cat = false)
    (hnb : b.mentionsInterface cat = false) (hab : a.accepts cat b) (hba : b.accepts cat a) :
    (a.strong cat).equiv cat (b.strong cat) := by
  rcases h.accepts_iff.1 hab with he | ⟨t, ht, hia, hsource⟩
  · exact he
  rcases h.accepts_iff.1 hba with he | ⟨s, hs, hib, htarget⟩
  · exact Slot.equiv_symm he
  -- both are references now, so each type is a subtype of the other
  rcases hsource with hnull | ⟨s', hs', -, hst⟩
  · rw [hs] at hnull
    cases hnull
  rcases htarget with hnull | ⟨t', ht', -, hts⟩
  · rw [ht] at hnull
    cases hnull
  rw [hs] at hs'
  rw [ht] at ht'
  cases hs'
  cases ht'
  rw [Slot.mentionsInterface, ht, Option.any_some] at hna
  rw [Slot.mentionsInterface, hs, Option.any_some] at hnb
  have heq := h.subtype_antisymm hobj hna hnb hts hst
  have hboxed : a.boxed = b.boxed := by
    rw [boxed_eq_isBoxable ha hia ht, boxed_eq_isBoxable hb hib hs, isBoxable_congr heq]
  exact h.strong_equiv_of_equiv (Slot.equiv_iff.2 ⟨hboxed, Or.inr ⟨t, s, ht, hs, heq⟩⟩)

end Catalog.Lawful

/-- **Passing is a preorder**, and a partial order on the strong forms of well-boxed slots that
mention no interface. -/
theorem accepts_preorder {cat : Catalog} (hcat : cat.Grown (· ≠ EntryId.object)) :
    (∀ a : Slot, a.accepts cat a) ∧
      (∀ a b c : Slot, a.accepts cat b → b.accepts cat c → a.accepts cat c) ∧
      ∀ a b : Slot, a.WellBoxed cat → b.WellBoxed cat → a.mentionsInterface cat = false →
        b.mentionsInterface cat = false → a.accepts cat b → b.accepts cat a →
        (a.strong cat).equiv cat (b.strong cat) := by
  have hlaw := hcat.lawful
  have hobj := hcat.targets_object
  refine ⟨hlaw.accepts_refl, fun a b c => hlaw.accepts_trans hobj, fun a b ha hb => ?_⟩
  exact hlaw.accepts_antisymm hobj ha hb

/-- The core catalog with an entry for arrays of strings. -/
def stringsCatalog : Catalog := (Catalog.core.newArray EntryId.string).2

/-- The entry for arrays of strings and the term for them take each other and have one strong form,
and the entry takes `null` because the term does. -/
theorem accepts_preorder_strings :
    (Slot.declared (.entry 23)).accepts stringsCatalog (.declared (.array .string)) ∧
      (Slot.declared (.array .string)).accepts stringsCatalog (.declared (.entry 23)) ∧
      (Slot.declared (.entry 23)).accepts stringsCatalog .null ∧
      ((Slot.declared (.entry 23)).strong stringsCatalog).equiv stringsCatalog
        ((Slot.declared (.array .string)).strong stringsCatalog) := by
  have hcat : stringsCatalog.Grown (· ≠ EntryId.object) :=
    Catalog.Grown.core.apply (.newArray EntryId.string) (by decide) trivial
  obtain ⟨-, htrans, hanti⟩ := accepts_preorder hcat
  have hup : (Slot.declared (.entry 23)).accepts stringsCatalog (.declared (.array .string)) := by
    decide +kernel
  have hdown : (Slot.declared (.array .string)).accepts stringsCatalog (.declared (.entry 23)) := by
    decide +kernel
  refine ⟨hup, hdown, htrans _ _ _ hup (by decide +kernel), ?_⟩
  exact hanti _ _ (Slot.wellBoxed_declared _) (Slot.wellBoxed_declared _) (by decide +kernel)
    (by decide +kernel) hup hdown

end StackTyping
