import StackTyping.Proofs.Rule.Relates
import StackTyping.Proofs.Rule.Store
import StackTyping.Proofs.Slot.Narrowing

/-!
Subtypes may stand in for their supertypes in every rule but one.

Run on two stacks of which the second narrows the first, a rule that succeeds on the first also
succeeds on the second and leaves a narrower stack again. Only `ldelema` is left out: it hands out
the address of an element and so asks for the exact element type. A rule for a stack on which paths
meet thus speaks for the stack of each path.
-/

namespace StackTyping

namespace Stack

variable {cat : Catalog} {s t : Stack}

/-- Every slot of the second stack narrows the matching slot of the first. -/
def Narrows (cat : Catalog) (s t : Stack) : Prop := List.Forall₂ (Slot.Narrows cat) s t

lemma Narrows.accepts (h : cat.Lawful) (hst : s.Narrows cat t) : s.accepts cat t :=
  accepts_iff.2 (hst.imp fun _ _ hab => h.accepts_of_narrows hab)

lemma narrows_of_substitutes (hs : s.WellBoxed cat) (ht : t.WellBoxed cat)
    (hst : List.Forall₂ (Slot.Substitutes cat) s t) : s.Narrows cat t := by
  induction hst with
  | nil => exact .nil
  | cons hab _ ih =>
    obtain ⟨ha, hs⟩ := wellBoxed_cons.1 hs
    obtain ⟨hb, ht⟩ := wellBoxed_cons.1 ht
    exact .cons (hab.narrows ha hb) (ih hs ht)

end Stack

lemma Rule.popArray_eq_ok_iff {scope : Scope} {stack out : Stack} {element? : Option Ty} :
    popArray scope stack = .ok element? out ↔ ∃ a, stack = a :: out ∧
      (a.isNull || a.isArray scope.cat) ∧ a.element? scope.cat = element? := by
  unfold popArray
  simp only [bind_eq_ok_iff, pop_eq_ok_iff, require_eq_ok_iff, pure_eq_ok_iff]
  constructor
  · rintro ⟨a, mid, rfl, _, _, ⟨hok, rfl⟩, rfl, rfl⟩
    exact ⟨a, rfl, hok, rfl⟩
  · rintro ⟨a, rfl, hok, rfl⟩
    exact ⟨a, out, rfl, (), out, ⟨hok, rfl⟩, rfl, rfl⟩

namespace Comparison

open Rule

/-- The second stack narrows the first, and nothing is asked where the rule fails on the first. -/
def narrowing (cat : Catalog) : Comparison where
  type := Eq
  operand := Slot.Narrows cat
  location s t := cat.equiv s t
  element s t := (Slot.declared s).Narrows cat (.declared t)
  lenient := True

variable {scope : Scope} {x y t : Ty}

/-- A pointer is narrowed by pointers to equivalent locations. -/
lemma relates_popPointer_narrowing : (narrowing scope.cat).Relates
    (fun x y => scope.cat.equiv x y) (popPointer scope) (popPointer scope) := by
  refine relates_of_ok trivial fun s t hst x out hs => ?_
  obtain ⟨p, rfl, hp, he⟩ := popPointer_eq_ok_iff.1 hs
  cases hst with
  | @cons _ q _ rest hpq hrest =>
    obtain ⟨y, hy, hxy⟩ := Slot.exists_element?_of_equiv (hpq.equiv_of_isPointer hp) he
    exact ⟨y, rest, popPointer_eq_ok_iff.2 ⟨q, rfl, hpq.isPointer_eq ▸ hp, hy⟩, hxy, hrest⟩

lemma relates_sameLocation_narrowing (hxy : scope.cat.equiv x y) :
    (narrowing scope.cat).Relates Eq (sameLocation scope x t) (sameLocation scope y t) := by
  refine relates_require_of_imp trivial fun hx => ?_
  have hweak := Slot.weak_congr (Slot.equiv_declared_iff.2 hxy)
  exact Slot.equiv_trans (Slot.equiv_symm hweak) hx

section Lawful

variable (h : scope.cat.Lawful)
include h

/-- An array is narrowed by arrays whose elements narrow its own, and `null` by `null`. -/
lemma relates_popArray_narrowing : (narrowing scope.cat).Relates
    (Option.Rel fun x y => (Slot.declared x).Narrows scope.cat (.declared y))
    (popArray scope) (popArray scope) := by
  refine relates_of_ok trivial fun s t hst _ out hs => ?_
  obtain ⟨a, rfl, hok, rfl⟩ := popArray_eq_ok_iff.1 hs
  cases hst with
  | @cons _ b _ rest hab hrest =>
    cases hnull : a.isNull with
    | true =>
      have hb : b.isNull := Slot.Narrows.isNull_eq hab ▸ hnull
      refine ⟨none, rest, popArray_eq_ok_iff.2 ⟨b, rfl, by simp [hb], ?_⟩, ?_, hrest⟩
      · exact Slot.element?_of_isNull hb
      · rw [Slot.element?_of_isNull hnull]
        exact .none
    | false =>
      rw [hnull, Bool.false_or] at hok
      obtain ⟨hb, x, y, hx, hy, hxy⟩ := h.exists_element?_of_narrows hab hok
      refine ⟨some y, rest, popArray_eq_ok_iff.2 ⟨b, rfl, by simp [hb], hy⟩, ?_, hrest⟩
      rw [hx]
      exact .some hxy

lemma relates_storable_narrowing (hxy : (Slot.declared x).Narrows scope.cat (.declared y)) :
    (narrowing scope.cat).Relates Eq (storable scope x t) (storable scope y t) := by
  have hbox := hxy.isBoxable_eq
  by_cases hc : scope.cat.isBoxable x || scope.cat.isBoxable t
  · rw [storable_of_isBoxable hc, storable_of_isBoxable (hbox ▸ hc)]
    refine relates_require_of_imp trivial fun hweak => ?_
    have hacc := accepts_of_weak_equiv h (Slot.equiv_symm hweak) (h.stores_refl (.declared x))
    have hx := h.isBoxable_of_accepts hacc hc
    have heq := hxy.equiv_of_isInline ((Slot.isInline_declared x).trans hx)
    exact Slot.equiv_trans (Slot.equiv_symm (Slot.weak_congr heq)) hweak
  · rw [storable_of_not_isBoxable hc, storable_of_not_isBoxable (hbox ▸ hc)]
    refine relates_require_of_imp trivial fun href => ?_
    rwa [← hxy.isReference_eq]

variable (hobj : scope.cat.implements.targets EntryId.object = [])
include hobj

/-- A load gives the more precise type that the location has, or the one that the instruction
names. -/
lemma relates_loaded_narrowing (hxy : (Slot.declared x).Narrows scope.cat (.declared y)) :
    (narrowing scope.cat).Relates (Slot.Narrows scope.cat) (loaded scope x t)
      (loaded scope y t) := by
  unfold loaded
  dsimp only
  rw [← hxy.isBoxable_eq]
  by_cases hc : scope.cat.isBoxable x || scope.cat.isBoxable t
  · rw [if_pos hc, if_pos hc]
    split
    · rename_i hstores
      obtain ⟨hto, hfrom⟩ := Bool.and_eq_true_iff.1 hstores
      have hx := h.isBoxable_of_accepts (h.accepts_of_stores hto) hc
      have heq := hxy.equiv_of_isInline ((Slot.isInline_declared x).trans hx)
      have hback := h.stores_trans hobj (h.stores_of_equiv (Slot.equiv_symm heq)) hfrom
      rw [if_pos (Bool.and_eq_true_iff.2 ⟨h.stores_narrowed hobj hxy hto, hback⟩)]
      exact .pure (.refl _)
    · exact .throw_left trivial
  · rw [if_neg hc, if_neg hc]
    split
    · rename_i hacc
      rw [if_pos (h.accepts_narrowed hobj hxy hacc)]
      exact .pure hxy
    · exact .throw_left trivial

lemma relates_popOwner_narrowing (f : Field) (direct : Bool) :
    (narrowing scope.cat).Relates Eq (popOwner scope f direct) (popOwner scope f direct) := by
  refine relates_pop.bind fun a b hab => relates_require_of_imp trivial fun ha => ?_
  have hab : a.Narrows scope.cat b := hab
  by_cases hbox : scope.cat.isBoxable (.entry f.declaring)
  · rw [if_pos hbox] at ha ⊢
    simp only [Bool.or_eq_true, Bool.and_eq_true] at ha ⊢
    rcases ha with ⟨hdirect, heq⟩ | ⟨hp, he⟩
    · have hinline : a.isInline scope.cat := by
        rw [Slot.isInline_congr heq, Slot.isInline_declared, hbox]
      have hba := Slot.equiv_symm (hab.equiv_of_isInline hinline)
      exact Or.inl ⟨hdirect, Slot.equiv_trans hba heq⟩
    · obtain ⟨x, hx, hxt⟩ := (Option.any_eq_true _ _).1 he
      obtain ⟨y, hy, hxy⟩ := Slot.exists_element?_of_equiv (hab.equiv_of_isPointer hp) hx
      have hyt := Catalog.equiv_trans (Catalog.equiv_symm hxy) hxt
      exact Or.inr ⟨hab.isPointer_eq ▸ hp, (Option.any_eq_true _ _).2 ⟨y, hy, hyt⟩⟩
  · rw [if_neg hbox, Bool.and_eq_true] at ha ⊢
    rw [← hab.isPointer_eq]
    exact ⟨ha.1, h.accepts_narrowed hobj hab ha.2⟩

/-- **Narrowing is respected** by the rules of a scope. -/
theorem respects_narrowing : (narrowing scope.cat).Respects scope scope where
  types := Catalog.corresponds_eq scope.cat
  invoke _ _ := ⟨rfl, fun _ _ _ _ _ => rfl⟩
  body := Body.related_self fun _ _ => rfl
  settings := rfl
  null := .refl _
  declared _ _ hst := hst ▸ .refl _
  boxedOf _ _ hst := hst ▸ .refl _
  var _ _ _ _ hab := hab.eq_of_eq (fun _ _ => id) ▸ .refl _
  isNull _ _ hab := hab.isNull_eq
  isInline _ _ hab := hab.isInline_eq
  isPointer _ _ hab := hab.isPointer_eq
  isReference _ _ hab := hab.isReference_eq
  category? _ _ hab := h.category?_eq_of_narrows hab
  accepts _ _ _ _ ha hb :=
    Or.inr ⟨trivial, ha.eq_of_eq (fun _ _ => id) ▸ h.accepts_narrowed hobj hb⟩
  stores _ _ _ _ ha hb :=
    Or.inr ⟨trivial, ha.eq_of_eq (fun _ _ => id) ▸ h.stores_narrowed hobj hb⟩
  popOwner f direct _ := relates_popOwner_narrowing h hobj f direct
  popArray := relates_popArray_narrowing h
  popPointer := relates_popPointer_narrowing
  element _ _ hxy := Or.inl (Slot.equiv_declared_iff.2 hxy)
  sameLocation _ _ _ _ hxy ht := ht ▸ relates_sameLocation_narrowing hxy
  loaded _ _ _ _ hxy ht := ht ▸ relates_loaded_narrowing h hobj hxy
  storable _ _ _ _ hxy ht := ht ▸ relates_storable_narrowing h hxy

end Lawful

end Comparison

namespace Rule

variable {scope : Scope}

/-- **Substitution of subtypes.** If a rule other than that of `ldelema` succeeds on a stack, and if
some references of the stack are replaced by others that may be passed for them, then it succeeds
on the new stack, and what it leaves may be passed for what it left before. -/
theorem step_of_substitutes {i : Nat} {instr : Instr} {s t out : Stack}
    (hcat : scope.cat.Grown (· ≠ EntryId.object)) (hinstr : ∀ e, instr ≠ .ldelema e)
    (hs : s.WellBoxed scope.cat) (ht : t.WellBoxed scope.cat)
    (hst : List.Forall₂ (Slot.Substitutes scope.cat) s t)
    (hstep : step scope i instr s = .ok () out) :
    ∃ out', step scope i instr t = .ok () out' ∧ out.accepts scope.cat out' := by
  have hnarrows := Stack.narrows_of_substitutes hs ht hst
  have hrespects := Comparison.respects_narrowing hcat.lawful hcat.targets_object
  have hrelates := hrespects.relates_step i (Instr.related_self fun _ _ => rfl)
    fun e he => absurd he (hinstr e)
  obtain ⟨_, out', hstep', -, hout⟩ := hrelates.exists_ok hnarrows hstep
  exact ⟨out', hstep', Stack.Narrows.accepts hcat.lawful hout⟩

/-- A method that returns the first of some objects. -/
def firstObject : Scope where
  cat := .core
  body :=
    { name := "firstObject"
      signature := ⟨.object, [.declared (.array .object)], .declared .object, true, .direct⟩
      locals := []
      code := [.ldvar (.arg 0), .ldc .i4, .ldelem .object, .ret]
      regions := [] }
  settings := {}

/-- The element of an array of objects may be loaded from an array of strings. -/
theorem step_of_substitutes_element :
    step firstObject 2 (.ldelem .object) [.ofPrimitive .int32, .declared (.array .object)]
        = .ok () [.declared .object] ∧
      ∃ out', step firstObject 2 (.ldelem .object)
          [.ofPrimitive .int32, .declared (.array .string)] = .ok () out' ∧
        Stack.accepts .core [.declared .object] out' := by
  have hindex : popIndex firstObject [.ofPrimitive .int32, .declared (.array .object)]
      = .ok () [.declared (.array .object)] :=
    pop_require_eq_ok_iff.2 ⟨.ofPrimitive .int32, rfl, by decide +kernel⟩
  have harray : popArray firstObject [.declared (.array .object)] = .ok (some .object) [] :=
    popArray_eq_ok_iff.2 ⟨_, rfl, by decide +kernel, by decide +kernel⟩
  have hloaded : loaded firstObject .object .object [] = .ok (.declared .object) [] := by
    unfold loaded
    rw [if_neg (by decide +kernel), if_pos (by decide +kernel)]
    rfl
  have hstep : step firstObject 2 (.ldelem .object)
      [.ofPrimitive .int32, .declared (.array .object)] = .ok () [.declared .object] :=
    bind_eq_ok_iff.2 ⟨(), _, hindex, bind_eq_ok_iff.2 ⟨some .object, _, harray,
      bind_eq_ok_iff.2 ⟨.declared .object, _, hloaded, rfl⟩⟩⟩
  have hboxed : ∀ t, Stack.WellBoxed .core [.ofPrimitive .int32, .declared (.array t)] :=
    fun t => Stack.wellBoxed_cons.2 ⟨Slot.wellBoxed_declared _,
      Stack.wellBoxed_cons.2 ⟨Slot.wellBoxed_declared _, Stack.wellBoxed_nil⟩⟩
  have harrays : Slot.Substitutes .core (.declared (.array .object)) (.declared (.array .string)) :=
    Or.inr ⟨rfl, rfl, by decide +kernel, by decide +kernel, by decide +kernel⟩
  exact ⟨hstep, step_of_substitutes .core (by simp) (hboxed .object) (hboxed .string)
    (.cons (Or.inl (Slot.equiv_refl _)) (.cons harrays .nil)) hstep⟩

end Rule

end StackTyping
