import StackTyping.Proofs.Rule.Relates

/-!
Rules do not tell related types apart.

If related types answer every question alike, then so do slots of related types. The rules of
related instructions thus come to related ends on stacks of such slots. A property of slots that
pushed slots and variables have is kept on the way.
-/

namespace StackTyping

/-- Variables and the slots that rules push have the property. -/
structure Scope.Keeps (scope : Scope) (P : Slot → Prop) : Prop where
  null : P .null
  declared : ∀ t, P (.declared t)
  boxedOf : ∀ t, P (.boxedOf scope.cat t)
  var : ∀ v a, scope.var? v = some a → P a

lemma Scope.Keeps.top (scope : Scope) : scope.Keeps fun _ => True :=
  ⟨trivial, fun _ => trivial, fun _ => trivial, fun _ _ _ => trivial⟩

namespace Comparison

open Rule

variable {T : Ty → Ty → Prop} {P : Slot → Prop} {cat cat' : Catalog} {body body' : Body}
  {settings : Settings} {x x' y y' : Ty}

/-- Slots of related types, the first ones with property `P`. -/
def ofTypes (T : Ty → Ty → Prop) (P : Slot → Prop) : Comparison where
  type := T
  operand a b := P a ∧ a.Related T b
  location := T
  element := T
  lenient := False

section Corresponds

variable (h : Catalog.Corresponds T cat cat')
include h

/-! ### Operands -/

lemma relates_popOwner {f : Field} (hf : ∀ t ∈ f.types, T t t) (direct : Bool) :
    (ofTypes T P).Relates Eq (popOwner ⟨cat, body, settings⟩ f direct)
      (popOwner ⟨cat', body', settings⟩ f direct) := by
  have howner : T (.entry f.declaring) (.entry f.declaring) := hf _ List.mem_cons_self
  have hslot := Slot.related_declared howner
  refine relates_pop_require (fun a b hab => Or.inl ?_) (.slot (Or.inl hslot))
  obtain ⟨-, hab⟩ := hab
  have hany : (a.element? cat).any (cat.equiv · (.entry f.declaring))
      = (b.element? cat').any (cat'.equiv · (.entry f.declaring)) :=
    any_eq_of_rel (h.slot_element? hab) fun _ _ hst => h.equiv _ _ _ _ hst howner
  dsimp only
  rw [h.isBoxable howner, h.slot_equiv hab hslot, h.slot_isPointer hab, hany,
    h.slot_accepts hslot hab]

lemma relates_popArray : (ofTypes T P).Relates (Option.Rel T) (popArray ⟨cat, body, settings⟩)
    (popArray ⟨cat', body', settings⟩) := by
  refine relates_pop.bind fun a b hab => ?_
  refine (relates_require (Or.inl ?_) (.unexpected .array (Or.inr hab))).seq fun _ => ?_
  · dsimp only
    rw [hab.2.isNull, h.slot_isArray hab.2]
  · exact .pure (h.slot_element? hab.2)

lemma relates_popPointer : (ofTypes T P).Relates T (popPointer ⟨cat, body, settings⟩)
    (popPointer ⟨cat', body', settings⟩) := by
  refine relates_pop.bind fun a b hab => ?_
  have hfault : Fault.Local T (ofTypes T P).slot (.unexpected .pointer a)
    (.unexpected .pointer b) := .unexpected .pointer (Or.inr hab)
  have helement := h.slot_element? hab.2
  dsimp only
  rw [h.slot_isPointer hab.2]
  generalize a.element? cat = s? at helement ⊢
  generalize b.element? cat' = t? at helement ⊢
  cases b.isPointer cat' with
  | false => exact .throw hfault
  | true =>
    cases helement with
    | none => exact .throw hfault
    | some hst => exact .pure hst

/-! ### Locations -/

lemma relates_sameLocation (hx : T x x') (hy : T y y') :
    (ofTypes T P).Relates Eq (sameLocation ⟨cat, body, settings⟩ x y)
      (sameLocation ⟨cat', body', settings⟩ x' y') := by
  have hfound := Slot.related_declared hx
  have hwanted := Slot.related_declared hy
  exact relates_require (Or.inl (h.slot_equiv (h.slot_weak hfound) (h.slot_weak hwanted)))
    (.unexpected (.slot (Or.inl hwanted)) (Or.inl hfound))

lemma relates_loaded (hP : ∀ t, P (.declared t)) (hx : T x x') (hy : T y y') :
    (ofTypes T P).Relates (ofTypes T P).operand (loaded ⟨cat, body, settings⟩ x y)
      (loaded ⟨cat', body', settings⟩ x' y') := by
  have hfound := Slot.related_declared hx
  have hwanted := Slot.related_declared hy
  have hfault : Fault.Local T (ofTypes T P).slot (.unexpected (.slot (.declared y)) (.declared x))
      (.unexpected (.slot (.declared y')) (.declared x')) :=
    .unexpected (.slot (Or.inl hwanted)) (Or.inl hfound)
  unfold loaded
  dsimp only
  rw [h.isBoxable hx, h.isBoxable hy, h.slot_stores hwanted hfound, h.slot_stores hfound hwanted,
    h.slot_accepts hwanted hfound]
  split
  · split
    · exact .pure ⟨hP y, hwanted⟩
    · exact .throw hfault
  · split
    · exact .pure ⟨hP x, hfound⟩
    · exact .throw hfault

lemma relates_storable (hx : T x x') (hy : T y y') :
    (ofTypes T P).Relates Eq (storable ⟨cat, body, settings⟩ x y)
      (storable ⟨cat', body', settings⟩ x' y') := by
  have hfound := Slot.related_declared hx
  have hwanted := Slot.related_declared hy
  unfold storable
  dsimp only
  rw [h.isBoxable hx, h.isBoxable hy, h.slot_isReference hfound, h.slot_isReference hwanted]
  split
  · exact relates_sameLocation h hx hy
  · exact relates_require (Or.inl rfl) (.unexpected (.slot (Or.inl hwanted)) (Or.inl hfound))

/-- **Slots of related types are respected** by the rules of related bodies. -/
theorem respects_ofTypes (hinvoke : Catalog.SameInvoke T cat cat') (hbody : body.Related T body')
    (hP : Scope.Keeps ⟨cat, body, settings⟩ P) :
    (ofTypes T P).Respects ⟨cat, body, settings⟩ ⟨cat', body', settings⟩ where
  types := h
  invoke := hinvoke
  body := hbody
  settings := rfl
  null := ⟨hP.null, Slot.related_null⟩
  declared s _ hst := ⟨hP.declared s, Slot.related_declared hst⟩
  boxedOf s _ hst := ⟨hP.boxedOf s, h.boxedOf hst⟩
  var v a _ ha hab := ⟨hP.var v a ha, hab⟩
  isNull _ _ hab := hab.2.isNull
  isInline _ _ hab := h.slot_isInline hab.2
  isPointer _ _ hab := h.slot_isPointer hab.2
  isReference _ _ hab := h.slot_isReference hab.2
  category? _ _ hab := h.slot_category? hab.2
  accepts _ _ _ _ ha hb := Or.inl (h.slot_accepts ha hb.2)
  stores _ _ _ _ ha hb := Or.inl (h.slot_stores ha hb.2)
  popOwner _ direct hf := relates_popOwner h hf direct
  popArray := relates_popArray h
  popPointer := relates_popPointer h
  element _ _ := id
  sameLocation _ _ _ _ := relates_sameLocation h
  loaded _ _ _ _ := relates_loaded h hP.declared
  storable _ _ _ _ := relates_storable h

end Corresponds

end Comparison

namespace Scope.Keeps

open Comparison

variable {P : Slot → Prop} {scope : Scope} (hP : scope.Keeps P) {stack out : Stack}
include hP

lemma outcome_step (i : Nat) (instr : Instr) (hstack : ∀ a ∈ stack, P a) :
    (ofTypes Eq P).Outcome Eq (Rule.step scope i instr stack) (Rule.step scope i instr stack) := by
  have hinvoke : Catalog.SameInvoke Eq scope.cat scope.cat := fun _ _ => ⟨rfl, fun _ _ _ _ _ => rfl⟩
  have hrespects := respects_ofTypes (Catalog.corresponds_eq scope.cat) hinvoke
    (Body.related_self fun _ _ => rfl) hP
  have hself : Stack.Related Eq stack stack :=
    List.forall₂_same.2 fun _ _ => Slot.related_self fun _ _ => rfl
  exact hrespects.relates_step i (Instr.related_self fun _ _ => rfl) (fun _ _ _ _ => id)
    ((List.forall₂_and_left stack stack).2 ⟨hstack, hself⟩)

variable {i : Nat} {instr : Instr}

lemma of_step (hstack : ∀ a ∈ stack, P a) (h : Rule.step scope i instr stack = .ok () out) :
    ∀ a ∈ out, P a := by
  have hrun := hP.outcome_step i instr hstack
  rw [h] at hrun
  cases hrun with
  | ok _ hout => exact ((List.forall₂_and_left out out).1 hout).1

/-- A rule that fails leaves such slots too. Its fault is about operands, variables and members. -/
lemma of_step_error {fault : Fault} (hstack : ∀ a ∈ stack, P a)
    (h : Rule.step scope i instr stack = .error fault out) :
    (∀ a ∈ out, P a) ∧ fault.Local Eq (ofTypes Eq P).slot fault := by
  have hrun := hP.outcome_step i instr hstack
  rw [h] at hrun
  cases hrun with
  | error hfault hleft => exact ⟨((List.forall₂_and_left out out).1 hleft).1, hfault⟩
  | lenient h => exact h.elim

end Scope.Keeps

end StackTyping
