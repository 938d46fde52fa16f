import StackTyping.Proofs.Stack
import StackTyping.Verify

/-!
What a store instruction writes, and whether the location takes it.

Stores to variables and fields check the value against the location itself. Stores through a
pointer check it against the type that the instruction names, and then compare that type with the
location. For inline values and for `stobj` the two agree in width, so the location takes the
value too. For `stind` between references they need not be related at all.
-/

namespace StackTyping

namespace Instr

/-- The stores to variables, fields and through pointers. Stores to array elements are left out:
these are checked again when they run. -/
def isStore : Instr → Bool
  | stvar _ | stfld _ | stsfld _ | stobj _ | stind _ => true
  | _ => false

end Instr

namespace Rule

variable {cat : Catalog} {scope : Scope} {stack out : Stack} {u : Unit} {s t : Ty}

/-- A store instruction on a stack writes a value to a location of some type. -/
inductive Writes (scope : Scope) : Instr → Stack → Slot → Slot → Prop where
  | var {v : Var} {location value : Slot} {rest : Stack} (hv : scope.var? v = some location) :
      Writes scope (.stvar v) (value :: rest) location value
  | field {f : Field} {value owner : Slot} {rest : Stack} :
      Writes scope (.stfld f) (value :: owner :: rest) (.declared f.type) value
  | staticField {f : Field} {value : Slot} {rest : Stack} :
      Writes scope (.stsfld f) (value :: rest) (.declared f.type) value
  | object {t actual : Ty} {value pointer : Slot} {rest : Stack}
      (hp : pointer.isPointer scope.cat) (he : pointer.element? scope.cat = some actual) :
      Writes scope (.stobj t) (value :: pointer :: rest) (.declared actual) value
  | indirect {t actual : Ty} {value pointer : Slot} {rest : Stack}
      (hp : pointer.isPointer scope.cat) (he : pointer.element? scope.cat = some actual) :
      Writes scope (.stind t) (value :: pointer :: rest) (.declared actual) value

/-! ### When the parts of a store succeed -/

lemma pop_require_eq_ok_iff {ok : Slot → Bool} {fault : Slot → Fault} :
    (pop >>= fun s => require (ok s) (fault s)) stack = .ok u out ↔
      ∃ s, stack = s :: out ∧ ok s = true := by
  rw [bind_eq_ok_iff]
  constructor
  · rintro ⟨s, mid, hpop, hreq⟩
    obtain ⟨hok, rfl⟩ := require_eq_ok_iff.1 hreq
    exact ⟨s, pop_eq_ok_iff.1 hpop, hok⟩
  · rintro ⟨s, rfl, hok⟩
    exact ⟨s, out, pop_eq_ok_iff.2 rfl, require_eq_ok_iff.2 ⟨hok, rfl⟩⟩

lemma popAccepted_eq_ok_iff {expected : Slot} : popAccepted scope expected stack = .ok u out ↔
    ∃ value, stack = value :: out ∧ expected.accepts scope.cat value := pop_require_eq_ok_iff

lemma popStored_eq_ok_iff {location : Slot} : popStored scope location stack = .ok u out ↔
    ∃ value, stack = value :: out ∧ location.stores scope.cat value := pop_require_eq_ok_iff

lemma popPointer_eq_ok_iff : popPointer scope stack = .ok t out ↔
    ∃ p, stack = p :: out ∧ p.isPointer scope.cat ∧ p.element? scope.cat = some t := by
  unfold popPointer
  simp only [bind_eq_ok_iff, pop_eq_ok_iff]
  constructor
  · rintro ⟨p, mid, rfl, h⟩
    cases hp : p.isPointer scope.cat with
    | false =>
      rw [hp] at h
      cases h
    | true =>
      cases he : p.element? scope.cat with
      | none =>
        rw [hp, he] at h
        cases h
      | some t' =>
        rw [hp, he] at h
        obtain ⟨rfl, rfl⟩ := pure_eq_ok_iff.1 h
        exact ⟨p, rfl, hp, he⟩
  · rintro ⟨p, rfl, hp, he⟩
    refine ⟨p, out, rfl, ?_⟩
    rw [hp, he]
    exact pure_eq_ok_iff.2 ⟨rfl, rfl⟩

lemma readVar_eq_ok_iff {v : Var} {s : Slot} : readVar scope v stack = .ok s out ↔
    scope.var? v = some s ∧ stack = out := by
  unfold readVar
  cases hv : scope.var? v with
  | some s' => simp
  | none => simp [throw_ne_ok]

lemma sameLocation_eq_ok_iff : sameLocation scope s t stack = .ok u out ↔
    ((Slot.declared s).weak scope.cat).equiv scope.cat ((Slot.declared t).weak scope.cat) ∧
      stack = out := require_eq_ok_iff

lemma storable_of_isBoxable (hbox : scope.cat.isBoxable s || scope.cat.isBoxable t) :
    storable scope s t = sameLocation scope s t := if_pos hbox

lemma storable_of_not_isBoxable (hbox : ¬(scope.cat.isBoxable s || scope.cat.isBoxable t)) :
    storable scope s t = require ((Slot.declared s).isReference scope.cat
      && (Slot.declared t).isReference scope.cat)
      (.unexpected (.slot (.declared t)) (.declared s)) := if_neg hbox

/-- A store through a pointer, up to the check of the location. -/
lemma pointerStore_eq_ok_iff {check : Ty → Rule Unit} :
    (do
      popStored scope (.declared t)
      let actual ← popPointer scope
      check actual) stack = .ok u out ↔
    ∃ value pointer actual rest, stack = value :: pointer :: rest ∧
      (Slot.declared t).stores scope.cat value ∧ pointer.isPointer scope.cat ∧
      pointer.element? scope.cat = some actual ∧ check actual rest = .ok u out := by
  simp only [bind_eq_ok_iff, popStored_eq_ok_iff, popPointer_eq_ok_iff]
  constructor
  · rintro ⟨_, _, ⟨value, rfl, hvalue⟩, actual, rest, ⟨pointer, rfl, hp, he⟩, hcheck⟩
    exact ⟨value, pointer, actual, rest, rfl, hvalue, hp, he, hcheck⟩
  · rintro ⟨value, pointer, actual, rest, rfl, hvalue, hp, he, hcheck⟩
    exact ⟨(), _, ⟨value, rfl, hvalue⟩, actual, rest, ⟨pointer, rfl, hp, he⟩, hcheck⟩

/-! ### Locations take what is written to them -/

/-- The instruction names one reference type and the location has another, which is not above
it. The last part is stated where the top class has no interfaces, since subtyping is transitive
only there. -/
structure Mismatched (cat : Catalog) (t : Ty) (location : Slot) : Prop where
  location_reference : location.isReference cat
  named_reference : (Slot.declared t).isReference cat
  differ : location.equiv cat (.declared t) = false
  not_above : cat.implements.targets EntryId.object = [] →
    location.accepts cat (.declared t) = false

/-- A location of the width that the instruction names takes the value. -/
lemma accepts_of_weak_equiv (h : cat.Lawful) {value : Slot}
    (hst : ((Slot.declared s).weak cat).equiv cat ((Slot.declared t).weak cat))
    (hvalue : (Slot.declared t).stores cat value) : (Slot.declared s).accepts cat value :=
  h.accepts_of_strong_equiv (h.strong_equiv_of_weak_equiv hst) (h.accepts_of_stores hvalue)

lemma accepts_or_mismatched (h : cat.Lawful) {value : Slot}
    (hs : (Slot.declared s).isReference cat) (ht : (Slot.declared t).isReference cat)
    (hvalue : (Slot.declared t).stores cat value) :
    (Slot.declared s).accepts cat value ∨ Mismatched cat t (.declared s) := by
  have hvalue := h.accepts_of_stores hvalue
  by_cases hacc : (Slot.declared s).accepts cat value
  · exact Or.inl hacc
  · refine Or.inr ⟨hs, ht, ?_, fun hobj => ?_⟩
    · refine Bool.eq_false_iff.2 fun he => hacc ?_
      exact h.accepts_of_strong_equiv (h.strong_equiv_of_equiv he) hvalue
    · exact Bool.eq_false_iff.2 fun he => hacc (h.accepts_trans hobj he hvalue)

lemma isBoxable_of_isReference (ht : (Slot.declared t).isReference cat) :
    cat.isBoxable t = false := by
  simp only [Slot.isReference, Slot.declared, Bool.false_or, Bool.not_eq_true',
    Bool.or_eq_false_iff] at ht
  exact ht.1

lemma accepts_of_step (h : scope.cat.Lawful) {i : Nat} {instr : Instr} (hstore : instr.isStore)
    (hstep : step scope i instr stack = .ok () out) :
    ∃ location value, Writes scope instr stack location value ∧
      (location.accepts scope.cat value ∨
        ∃ t, instr = .stind t ∧ Mismatched scope.cat t location) := by
  cases instr with
  | stvar v =>
    obtain ⟨location, mid, hread, hpop⟩ := bind_eq_ok_iff.1 hstep
    obtain ⟨hv, rfl⟩ := readVar_eq_ok_iff.1 hread
    obtain ⟨value, rfl, hacc⟩ := popAccepted_eq_ok_iff.1 hpop
    exact ⟨location, value, .var hv, Or.inl hacc⟩
  | stfld f =>
    obtain ⟨_, mid, hreq, hstep⟩ := bind_eq_ok_iff.1 hstep
    obtain ⟨-, rfl⟩ := require_eq_ok_iff.1 hreq
    obtain ⟨_, mid, hpop, howner⟩ := bind_eq_ok_iff.1 hstep
    obtain ⟨value, rfl, hacc⟩ := popStored_eq_ok_iff.1 hpop
    obtain ⟨owner, rfl, -⟩ := pop_require_eq_ok_iff.1 howner
    exact ⟨_, value, .field, Or.inl (h.accepts_of_stores hacc)⟩
  | stsfld f =>
    obtain ⟨_, mid, hreq, hpop⟩ := bind_eq_ok_iff.1 hstep
    obtain ⟨-, rfl⟩ := require_eq_ok_iff.1 hreq
    obtain ⟨value, rfl, hacc⟩ := popStored_eq_ok_iff.1 hpop
    exact ⟨_, value, .staticField, Or.inl (h.accepts_of_stores hacc)⟩
  | stobj t =>
    obtain ⟨value, pointer, actual, rest, rfl, hvalue, hp, he, hcheck⟩ :=
      pointerStore_eq_ok_iff.1 hstep
    obtain ⟨hsame, -⟩ := sameLocation_eq_ok_iff.1 hcheck
    exact ⟨_, value, .object hp he, Or.inl (accepts_of_weak_equiv h hsame hvalue)⟩
  | stind t =>
    obtain ⟨value, pointer, actual, rest, rfl, hvalue, hp, he, hcheck⟩ :=
      pointerStore_eq_ok_iff.1 hstep
    refine ⟨_, value, .indirect hp he, ?_⟩
    by_cases hbox : scope.cat.isBoxable actual || scope.cat.isBoxable t
    · rw [storable_of_isBoxable hbox] at hcheck
      obtain ⟨hsame, -⟩ := sameLocation_eq_ok_iff.1 hcheck
      exact Or.inl (accepts_of_weak_equiv h hsame hvalue)
    · rw [storable_of_not_isBoxable hbox, require_eq_ok_iff, Bool.and_eq_true] at hcheck
      rcases accepts_or_mismatched h hcheck.1.1 hcheck.1.2 hvalue with hacc | hmis
      · exact Or.inl hacc
      · exact Or.inr ⟨t, rfl, hmis⟩
  | _ => cases hstore

lemma step_stind_iff (h : scope.cat.Lawful) {i : Nat} {value pointer : Slot} {rest : Stack}
    (hp : pointer.isPointer scope.cat) (he : pointer.element? scope.cat = some s)
    (hs : (Slot.declared s).isReference scope.cat) (ht : (Slot.declared t).isReference scope.cat) :
    step scope i (.stind t) (value :: pointer :: rest) = .ok () rest ↔
      (Slot.declared t).accepts scope.cat value := by
  have hbs := isBoxable_of_isReference hs
  have hbt := isBoxable_of_isReference ht
  have hbox : ¬(scope.cat.isBoxable s || scope.cat.isBoxable t) := by simp [hbs, hbt]
  have hprim := h.primitive?_of_not_inline ((Slot.isInline_declared t).trans hbt)
  rw [← Catalog.Lawful.stores_of_none hprim]
  refine pointerStore_eq_ok_iff.trans ⟨?_, fun hvalue => ?_⟩
  · rintro ⟨value', pointer', actual, rest', heq, hvalue, -⟩
    cases heq
    exact hvalue
  · refine ⟨value, pointer, s, rest, rfl, hvalue, hp, he, ?_⟩
    rw [storable_of_not_isBoxable hbox, require_eq_ok_iff, hs, ht]
    exact ⟨rfl, rfl⟩

/-- **A location takes what is written to it**, whichever named types were declared to implement
interfaces. Only `stind` may name a reference type unrelated to that of the location, and there
the store succeeds exactly if the named type takes the value. -/
theorem store_accepts_or_mismatched {P : EntryId → Prop} (hcat : scope.cat.Grown P) (i : Nat) :
    (∀ instr stack out, instr.isStore → step scope i instr stack = .ok () out →
      ∃ location value, Writes scope instr stack location value ∧
        (location.accepts scope.cat value ∨
          ∃ t, instr = .stind t ∧ Mismatched scope.cat t location)) ∧
    ∀ t value pointer rest location, Mismatched scope.cat t location →
      Writes scope (.stind t) (value :: pointer :: rest) location value →
      (step scope i (.stind t) (value :: pointer :: rest) = .ok () rest ↔
        (Slot.declared t).accepts scope.cat value) := by
  refine ⟨fun instr stack out => accepts_of_step hcat.lawful, ?_⟩
  intro t value pointer rest location hmis hwrites
  cases hwrites with
  | indirect hp he =>
    exact step_stind_iff hcat.lawful hp he hmis.location_reference hmis.named_reference

/-- A method that stores its argument, an object, through a pointer to a local. -/
def storeObject (t : Ty) : Scope where
  cat := .core
  body :=
    { name := "storeObject"
      signature := ⟨.object, [.declared .object], .declared (.entry EntryId.void), true, .direct⟩
      locals := [t]
      code := [.ldvara (.loc 0), .ldvar (.arg 0), .stind .object, .ret]
      regions := [] }
  settings := {}

/-- An object is stored in a local for objects. -/
theorem store_accepts_object :
    step (storeObject .object) 2 (.stind .object)
        [.declared .object, .declared (.pointer .object)] = .ok () [] ∧
      ∃ location value, Writes (storeObject .object) (.stind .object)
          [.declared .object, .declared (.pointer .object)] location value ∧
        (location.accepts .core value ∨
          ∃ t, Instr.stind .object = .stind t ∧ Mismatched .core t location) := by
  have hstep : step (storeObject .object) 2 (.stind .object)
      [.declared .object, .declared (.pointer .object)] = .ok () [] :=
    (step_stind_iff .core (by decide +kernel) (s := .object) (by decide +kernel)
      (by decide +kernel) (by decide +kernel)).2 (by decide +kernel)
  exact ⟨hstep, (store_accepts_or_mismatched (P := fun _ => True) .core 2).1 _ _ _ rfl hstep⟩

/-- An object is stored in a local for strings: the method is accepted, the indirect store
succeeds on the stack it is reached with, and the local does not take the value. -/
theorem store_object_in_string :
    ((verify .core (storeObject .string).body {}).toOption.bind fun typing => typing.entry? 2)
        = some [.declared .object, .declared (.pointer .string)] ∧
      step (storeObject .string) 2 (.stind .object)
        [.declared .object, .declared (.pointer .string)] = .ok () [] ∧
      Writes (storeObject .string) (.stind .object)
        [.declared .object, .declared (.pointer .string)] (.declared .string) (.declared .object) ∧
      (Slot.declared .string).accepts .core (.declared .object) = false := by
  have hp : (Slot.declared (.pointer .string)).isPointer .core := by decide +kernel
  have he : (Slot.declared (.pointer .string)).element? .core = some .string := by decide +kernel
  refine ⟨by decide +kernel, ?_, .indirect hp he, by decide +kernel⟩
  exact (step_stind_iff .core hp he (by decide +kernel) (by decide +kernel)).2 (by decide +kernel)

end Rule

end StackTyping
