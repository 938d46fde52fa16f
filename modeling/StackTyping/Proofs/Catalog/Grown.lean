import Mathlib.Tactic.Common
import Mathlib.Tactic.IntervalCases
import StackTyping.Proofs.Catalog.Operations

/-!
What growth guarantees about a catalog.

A catalog grows from the core one by declaring types, members and interfaces and by building
arrays and pointers. Whatever the order, the kind of a type tells what its base can be: only
classes are bases, only the top class has none among the classes, and only interfaces are
implemented. Later proofs use these laws and never look at the operations again.
-/

namespace StackTyping

lemma Kind.before_array {i j : EntryId} (h : j < i) :
    (Kind.array j).before i = .array (.entry j) := if_pos h

lemma Kind.before_pointer {i j : EntryId} (h : j < i) :
    (Kind.pointer j).before i = .pointer (.entry j) := if_pos h

namespace Catalog

/-- The base goes with the kind of a type that is declared: classes extend classes, value types and
enumerations the classes that are there for them. -/
def BaseFits (cat : Catalog) : Kind EntryId → Option EntryId → Prop
  | .classType, some base => cat.kind (.entry base) = .classType
  | .interface, none => True
  | .valueType none, some base => base = EntryId.valueType
  | .enumType, some base => base = EntryId.enumBase
  | _, _ => False

instance (cat : Catalog) :
    (kind : Kind EntryId) → (base? : Option EntryId) → Decidable (cat.BaseFits kind base?)
  | .classType, some _ | .valueType none, some _ | .enumType, some _ =>
    inferInstanceAs (Decidable (_ = _))
  | .interface, none => .isTrue trivial
  | .classType, none | .interface, some _ | .valueType none, none | .valueType (some _), _
  | .enumType, none | .void, _ | .array _, _ | .pointer _, _ => .isFalse id

/-- The operations that keep the hierarchy in shape. Interfaces are implemented by named types that
`P` allows. -/
def Op.Regular (P : EntryId → Prop) (cat : Catalog) : Op → Prop
  | declareType _ kind base? => cat.BaseFits kind base?
  | implement type interface =>
    (cat.ownName? (.entry type)).isSome ∧ P type ∧ cat.isInterface (.entry interface)
  | newArray _ | newPointer _ | declareMethod _ | declareField _ => True

instance (P : EntryId → Prop) [DecidablePred P] (cat : Catalog) :
    (op : Op) → Decidable (op.Regular P cat)
  | .declareType _ kind base? => inferInstanceAs (Decidable (cat.BaseFits kind base?))
  | .implement _ _ => inferInstanceAs (Decidable (_ ∧ _))
  | .newArray _ | .newPointer _ | .declareMethod _ | .declareField _ => .isTrue trivial

/-- The catalogs grown from the core one by such operations. -/
def Grown (P : EntryId → Prop) (cat : Catalog) : Prop := Grows (Op.Regular P) core cat

lemma Grown.core {P : EntryId → Prop} : Grown P core := .refl

/-- The bases that go with a kind, for types other than the top class. -/
inductive Shape (cat : Catalog) : Kind Ty → Option Ty → Prop where
  | classType {b : Ty} (h : cat.kind b = .classType) : Shape cat .classType (some b)
  | interface : Shape cat .interface none
  | valueType (p : Option Primitive) : Shape cat (.valueType p) (some (.entry EntryId.valueType))
  | enumType : Shape cat .enumType (some .enumBase)
  | void : Shape cat .void none
  | voidType : Shape cat .void (some (.entry EntryId.valueType))
  | array (e : Ty) : Shape cat (.array e) (some .arrayBase)
  | pointer (e : Ty) : Shape cat (.pointer e) none

/-- The laws that every grown catalog obeys. -/
structure Lawful (cat : Catalog) : Prop where
  /-- The core types stay where they are. -/
  core_entries : ∀ i < 23, cat.entries[i]? = core.entries[i]?
  /-- The kind of a type fits its base. -/
  shape : ∀ t, t ≠ .object → Shape cat (cat.kind t) (cat.base? t)
  /-- Each primitive has one type. -/
  primitive : ∀ t p, cat.kind t = .valueType (some p) → t = .ofPrimitive p
  /-- Arrays and pointers have no name. -/
  named_plain : ∀ t, (cat.ownName? t).isSome → cat.element? t = none
  /-- Only named types implement. -/
  implements_named : ∀ i j, (i, j) ∈ cat.implements → (cat.ownName? (.entry i)).isSome
  /-- Only interfaces are implemented. -/
  implements_interface : ∀ i j, (i, j) ∈ cat.implements → cat.kind (.entry j) = .interface

variable {cat : Catalog} {e : Entry} {s t b : Ty}

/-! ### Appending an entry -/

lemma getElem?_append_of_ne {i : Nat} (h : i ≠ cat.entries.size) :
    (cat.append e).2.entries[i]? = cat.entries[i]? := by
  simp [append, Array.getElem?_push, h]

lemma getElem?_append_self : (cat.append e).2.entries[cat.entries.size]? = some e := by
  simp [append]

lemma kind_append_of_ne (h : t ≠ .entry cat.entries.size) :
    (cat.append e).2.kind t = cat.kind t := by
  cases t with
  | entry i =>
    have hi : i ≠ cat.entries.size := fun hi => h (congrArg Ty.entry hi)
    simp only [kind, getElem?_append_of_ne hi]
  | array _ => rfl
  | pointer _ => rfl

lemma base?_append_of_ne (h : t ≠ .entry cat.entries.size) :
    (cat.append e).2.base? t = cat.base? t := by
  cases t with
  | entry i =>
    have hi : i ≠ cat.entries.size := fun hi => h (congrArg Ty.entry hi)
    simp only [base?, baseId?, getElem?_append_of_ne hi]
  | array _ => rfl
  | pointer _ => rfl

lemma ownName?_append_of_ne (h : t ≠ .entry cat.entries.size) :
    (cat.append e).2.ownName? t = cat.ownName? t := by
  cases t with
  | entry i =>
    have hi : i ≠ cat.entries.size := fun hi => h (congrArg Ty.entry hi)
    simp only [ownName?, getElem?_append_of_ne hi]
  | array _ => rfl
  | pointer _ => rfl

lemma kind_append_self :
    (cat.append e).2.kind (.entry cat.entries.size) = e.kind.before cat.entries.size := by
  simp only [kind, getElem?_append_self]

lemma base?_append_self :
    (cat.append e).2.base? (.entry cat.entries.size)
      = (e.base?.filter (· < cat.entries.size)).map .entry := by
  simp only [base?, baseId?, getElem?_append_self, Option.bind_some]

lemma ownName?_append_self :
    (cat.append e).2.ownName? (.entry cat.entries.size) = e.name? := by
  simp only [ownName?, getElem?_append_self, Option.bind_some]

/-- A position past the end is void, so what is not void lies before it. -/
lemma ne_size_of_kind (h : cat.kind t ≠ .void) : t ≠ .entry cat.entries.size := by
  rintro rfl
  exact h (by simp [kind])

lemma kind_append_of_ne_void (h : cat.kind t ≠ .void) : (cat.append e).2.kind t = cat.kind t :=
  kind_append_of_ne (ne_size_of_kind h)

lemma lt_size_of_kind {i : EntryId} (h : cat.kind (.entry i) ≠ .void) : i < cat.entries.size := by
  by_contra hi
  exact h (by simp [kind, Array.getElem?_eq_none (Nat.le_of_not_lt hi)])

lemma lt_size_of_baseId? {i j : EntryId} (h : cat.baseId? i = some j) : i < cat.entries.size := by
  by_contra hi
  rw [baseId?, Array.getElem?_eq_none (Nat.le_of_not_lt hi)] at h
  cases h

/-! ### The laws are kept -/

lemma Shape.mono {cat' : Catalog} {k : Kind Ty} {b? : Option Ty} (h : Shape cat k b?)
    (hk : ∀ t, cat.kind t = .classType → cat'.kind t = .classType) : Shape cat' k b? := by
  cases h with
  | classType h => exact .classType (hk _ h)
  | interface => exact .interface
  | valueType p => exact .valueType p
  | enumType => exact .enumType
  | void => exact .void
  | voidType => exact .voidType
  | array e => exact .array e
  | pointer e => exact .pointer e

lemma Lawful.size_le (h : Lawful cat) : 23 ≤ cat.entries.size := by
  by_contra hlt
  have h22 := h.core_entries 22 (by omega)
  rw [Array.getElem?_eq_none (by omega)] at h22
  exact absurd h22 (by decide)

lemma Lawful.filter_core (h : Lawful cat) {i : Nat} (hi : i < 23) :
    (some i).filter (· < cat.entries.size) = some i := by
  have := h.size_le
  exact Option.filter_some_pos (by simp only [decide_eq_true_eq]; omega)

/-- Types that have a name of their own are neither arrays nor pointers. -/
def NamedPlain (cat : Catalog) : Prop := ∀ t, (cat.ownName? t).isSome → cat.element? t = none

lemma namedPlain_append (h : NamedPlain cat) (hname : e.name?.isSome → e.kind.element? = none) :
    NamedPlain (cat.append e).2 := by
  intro t ht
  by_cases hnew : t = .entry cat.entries.size
  · subst hnew
    rw [ownName?_append_self] at ht
    have he := hname ht
    rw [element?, kind_append_self]
    cases hk : e.kind with
    | array j => rw [hk] at he; cases he
    | pointer j => rw [hk] at he; cases he
    | _ => rfl
  · rw [ownName?_append_of_ne hnew] at ht
    rw [element?, kind_append_of_ne hnew]
    exact h t ht

/-- An entry of a fitting shape that is no primitive may be appended. -/
lemma Lawful.append (h : Lawful cat)
    (hshape : Shape cat (e.kind.before cat.entries.size)
      ((e.base?.filter (· < cat.entries.size)).map .entry))
    (hprim : ∀ p, e.kind ≠ .valueType (some p))
    (hname : e.name?.isSome → e.kind.element? = none) : Lawful (cat.append e).2 := by
  have hsize := h.size_le
  have hclass : ∀ t, cat.kind t = .classType → (cat.append e).2.kind t = .classType := by
    intro t ht
    rw [kind_append_of_ne_void (by rw [ht]; simp), ht]
  refine ⟨fun i hi => ?_, fun t ht => ?_, fun t p ht => ?_, fun t ht => ?_, fun i j hij => ?_,
    fun i j hij => ?_⟩
  · rw [getElem?_append_of_ne (by omega), h.core_entries i hi]
  · by_cases hnew : t = .entry cat.entries.size
    · subst hnew
      rw [kind_append_self, base?_append_self]
      exact hshape.mono hclass
    · rw [kind_append_of_ne hnew, base?_append_of_ne hnew]
      exact (h.shape t ht).mono hclass
  · by_cases hnew : t = .entry cat.entries.size
    · subst hnew
      rw [kind_append_self] at ht
      refine absurd ?_ (hprim p)
      cases hk : e.kind with
      | valueType q =>
        rw [hk] at ht
        cases ht
        rfl
      | array j => rw [hk, Kind.before] at ht; split at ht <;> cases ht
      | pointer j => rw [hk, Kind.before] at ht; split at ht <;> cases ht
      | _ => rw [hk] at ht; cases ht
    · rw [kind_append_of_ne hnew] at ht
      exact h.primitive t p ht
  · exact namedPlain_append h.named_plain hname t ht
  · have hi := h.implements_named i j hij
    rw [ownName?_append_of_ne fun hnew => ?_]
    · exact hi
    · rw [hnew] at hi
      simp [ownName?] at hi
  · have hj := h.implements_interface i j hij
    rw [kind_append_of_ne_void (by rw [hj]; simp), hj]

/-- Declaring a type under a taken name changes nothing. -/
lemma Lawful.declareType (h : Lawful cat) (name : TypeName) {kind : Kind EntryId}
    {base? : Option EntryId}
    (hshape : Shape cat (kind.before cat.entries.size)
      ((base?.filter (· < cat.entries.size)).map .entry))
    (hprim : ∀ p, kind ≠ .valueType (some p)) (helem : kind.element? = none) :
    Lawful (cat.declareType name kind base?).2 := by
  unfold Catalog.declareType
  split
  · exact h
  · exact h.append hshape hprim fun _ => helem

lemma isInterface_iff : cat.isInterface t ↔ cat.kind t = .interface := by
  unfold isInterface
  cases cat.kind t <;> simp [Kind.isInterface]

lemma Lawful.implement (h : Lawful cat) {i j : EntryId}
    (hname : (cat.ownName? (.entry i)).isSome) (hint : cat.isInterface (.entry j)) :
    Lawful (cat.implement i j) := by
  have hj := isInterface_iff.1 hint
  refine ⟨h.core_entries, fun t ht => (h.shape t ht).mono fun _ h => h, h.primitive,
    h.named_plain, fun a b hab => ?_, fun a b hab => ?_⟩ <;>
    rcases List.mem_append.1 hab with hab | hab
  · exact h.implements_named a b hab
  · obtain ⟨rfl, rfl⟩ := Prod.mk.inj (List.mem_singleton.1 hab)
    exact hname
  · exact h.implements_interface a b hab
  · obtain ⟨rfl, rfl⟩ := Prod.mk.inj (List.mem_singleton.1 hab)
    exact hj

lemma Lawful.with_members (h : Lawful cat) (methods : Array Method) (fields : Array Field) :
    Lawful { cat with methods := methods, fields := fields } :=
  ⟨h.core_entries, fun t ht => (h.shape t ht).mono fun _ h => h, h.primitive, h.named_plain,
    h.implements_named, h.implements_interface⟩

/-! ### The core catalog -/

lemma core_shape {i : EntryId} (h : i < 23) (hobj : i ≠ EntryId.object) :
    Shape core (core.kind (.entry i)) (core.base? (.entry i)) := by
  interval_cases i
  all_goals first
    | exact absurd rfl hobj
    | exact Shape.classType (by decide)
    | exact Shape.valueType _
    | exact Shape.voidType

lemma core_getElem?_eq_none {i : EntryId} (h : 23 ≤ i) : core.entries[i]? = none :=
  Array.getElem?_eq_none h

lemma core_primitive {i : EntryId} {p : Primitive} (h : i < 23)
    (hk : core.kind (.entry i) = .valueType (some p)) : i = EntryId.ofPrimitive p := by
  revert p
  interval_cases i
  all_goals
    intro p hk
    cases hk
    try rfl

lemma Lawful.core : Lawful core := by
  refine ⟨fun _ _ => rfl, fun t ht => ?_, fun t p ht => ?_, fun t ht => ?_, fun i j hij => ?_,
    fun i j hij => ?_⟩
  · cases t with
    | entry i =>
      rcases Nat.lt_or_ge i 23 with hi | hi
      · exact core_shape hi fun h => ht (congrArg Ty.entry h)
      · simp only [kind, base?, baseId?, core_getElem?_eq_none hi]
        exact .void
    | array e => exact .array e
    | pointer e => exact .pointer e
  · cases t with
    | entry i =>
      rcases Nat.lt_or_ge i 23 with hi | hi
      · exact congrArg Ty.entry (core_primitive hi ht)
      · simp only [kind, core_getElem?_eq_none hi] at ht
        cases ht
    | array e => cases ht
    | pointer e => cases ht
  · cases t with
    | entry i =>
      rcases Nat.lt_or_ge i 23 with hi | hi
      · interval_cases i <;> rfl
      · simp only [element?, kind, core_getElem?_eq_none hi, Kind.element?]
    | array e => cases ht
    | pointer e => cases ht
  · cases hij
  · cases hij

lemma Lawful.declareFitting (h : Lawful cat) (name : TypeName) {kind : Kind EntryId}
    {base? : Option EntryId} (hlinks : ∀ b ∈ base?, b < cat.entries.size)
    (hfits : cat.BaseFits kind base?) : Lawful (cat.declareType name kind base?).2 := by
  unfold BaseFits at hfits
  split at hfits
  · refine h.declareType name ?_ (by simp) rfl
    rw [Option.filter_some_pos (by simpa using hlinks)]
    exact .classType hfits
  · exact h.declareType name .interface (by simp) rfl
  · refine h.declareType name ?_ (by simp) rfl
    rw [hfits, h.filter_core (by decide)]
    exact .valueType none
  · refine h.declareType name ?_ (by simp) rfl
    rw [hfits, h.filter_core (by decide)]
    exact .enumType
  · exact hfits.elim

lemma Lawful.apply {P : EntryId → Prop} {op : Op} (h : Lawful cat) (hlinks : op.Linked cat)
    (hop : op.Regular P cat) : Lawful (cat.apply op) := by
  cases op with
  | declareType name kind base? => exact h.declareFitting name hlinks.2 hop
  | newArray element =>
    refine h.append ?_ (by simp) (by simp)
    rw [h.filter_core (by decide), Kind.before_array hlinks]
    exact .array _
  | newPointer element =>
    refine h.append ?_ (by simp) (by simp)
    rw [Kind.before_pointer hlinks]
    exact .pointer _
  | implement type interface => exact h.implement hop.1 hop.2.2
  | declareMethod m => exact h.with_members _ _
  | declareField f => exact h.with_members _ _

/-- **Growth keeps the laws.** -/
theorem Grown.lawful {P : EntryId → Prop} (h : Grown P cat) : Lawful cat := by
  induction h with
  | refl => exact .core
  | tail _ hstep ih =>
    obtain ⟨op, hlinks, hop⟩ := hstep
    exact ih.apply hlinks hop

lemma implements_declareType {name : TypeName} {kind : Kind EntryId} {base? : Option EntryId} :
    (cat.declareType name kind base?).2.implements = cat.implements := by
  unfold declareType
  split <;> rfl

/-- If the top class may not implement interfaces, it has none. -/
lemma Grown.targets_object (h : Grown (· ≠ EntryId.object) cat) :
    cat.implements.targets EntryId.object = [] := by
  suffices ∀ j, (EntryId.object, j) ∉ cat.implements by
    refine List.eq_nil_iff_forall_not_mem.2 fun j hj => this j (Links.mem_targets.1 hj)
  induction h with
  | refl => exact fun j hj => by cases hj
  | tail _ hstep ih =>
    obtain ⟨op, -, hop⟩ := hstep
    intro j hj
    cases op with
    | declareType => exact ih j (implements_declareType ▸ hj)
    | newArray | newPointer | declareMethod | declareField => exact ih j hj
    | implement type interface =>
      rcases List.mem_append.1 hj with hj | hj
      · exact ih j hj
      · exact hop.2.1 (Prod.mk.inj (List.mem_singleton.1 hj)).1.symm

/-! ### What the laws say -/

namespace Lawful

variable (h : Lawful cat)
include h

lemma kind_core (i : Nat) (hi : i < 23) :
    cat.kind (.entry i) = Catalog.core.kind (.entry i) := by
  simp only [kind, h.core_entries i hi]

lemma kind_object : cat.kind .object = .classType := h.kind_core EntryId.object (by decide)

lemma kind_arrayBase : cat.kind .arrayBase = .classType := h.kind_core EntryId.array (by decide)

lemma kind_enumBase : cat.kind .enumBase = .classType := h.kind_core EntryId.enumBase (by decide)

lemma base?_object : cat.base? .object = none := by
  simp only [base?, baseId?, Ty.object, h.core_entries EntryId.object (by decide)]
  rfl

lemma kind_ofPrimitive (p : Primitive) : cat.kind (.ofPrimitive p) = .valueType (some p) := by
  have hp : EntryId.ofPrimitive p < 23 := by cases p <;> decide
  simp only [Ty.ofPrimitive, kind, h.core_entries _ hp, core_entries_ofPrimitive]
  rfl

lemma kind_of_base? (hb : cat.base? s = some b) : cat.kind b = .classType := by
  have hs : s ≠ .object := by
    rintro rfl
    rw [h.base?_object] at hb
    cases hb
  have hshape := h.shape s hs
  rw [hb] at hshape
  generalize cat.kind s = k at hshape
  cases hshape with
  | classType hc => exact hc
  | valueType | voidType => exact h.kind_core EntryId.valueType (by decide)
  | enumType => exact h.kind_enumBase
  | array => exact h.kind_arrayBase

/-- The kind of a type that is no class tells its base. -/
lemma shape_of_kind {k : Kind Ty} (hk : cat.kind t = k) (hne : k ≠ .classType) :
    ∃ b?, cat.base? t = b? ∧ Shape cat k b? := by
  have hobj : t ≠ .object := by
    rintro rfl
    exact hne (hk.symm.trans h.kind_object)
  exact ⟨cat.base? t, rfl, hk ▸ h.shape t hobj⟩

lemma base?_interface (hk : cat.kind t = .interface) : cat.base? t = none := by
  obtain ⟨b?, hb, hshape⟩ := h.shape_of_kind hk (by simp)
  cases hshape
  exact hb

lemma base?_enum (hk : cat.kind t = .enumType) : cat.base? t = some .enumBase := by
  obtain ⟨b?, hb, hshape⟩ := h.shape_of_kind hk (by simp)
  cases hshape
  exact hb

lemma base?_array (hk : cat.kind t = .array s) : cat.base? t = some .arrayBase := by
  obtain ⟨b?, hb, hshape⟩ := h.shape_of_kind hk (by simp)
  cases hshape
  exact hb

lemma base?_pointer (hk : cat.kind t = .pointer s) : cat.base? t = none := by
  obtain ⟨b?, hb, hshape⟩ := h.shape_of_kind hk (by simp)
  cases hshape
  exact hb

/-- The top of the hierarchy is the one core class that has no base. -/
lemma isTop_iff : cat.isTop t = true ↔ t = .object := by
  constructor
  · intro ht
    obtain ⟨hk, hb⟩ : cat.kind t = .classType ∧ cat.base? t = none := by simpa [isTop] using ht
    by_contra hobj
    have hshape := h.shape t hobj
    rw [hk, hb] at hshape
    cases hshape
  · rintro rfl
    simp [isTop, h.kind_object, h.base?_object]

lemma declaredInterfaces_eq_nil (he : (cat.element? t).isSome) : cat.declaredInterfaces t = [] := by
  cases t with
  | entry i =>
    refine List.eq_nil_iff_forall_not_mem.2 fun j hj => ?_
    have hplain := h.named_plain _ (h.implements_named i j (Links.mem_targets.1 hj))
    rw [hplain] at he
    cases he
  | array _ => rfl
  | pointer _ => rfl

end Lawful

end Catalog

end StackTyping
