import StackTyping.Proofs.Rule.Store
import StackTyping.Proofs.Verify.Consistency

/-!
Numbers keep their width on the way to memory, except along backward edges.

A store checks the top of its entry stack by width. A forward edge carries what the entry stack
covers, which is of the same width; so what it brings could be stored itself. A backward edge is
only checked by machine size, and there a number of another width may slip in.
-/

namespace StackTyping

namespace Instr

/-- The type that a store to memory names for its location. -/
def location? : Instr → Option Ty
  | stfld f | stsfld f => some f.type
  | stelem t | stind t | stobj t => some t
  | _ => none

end Instr

namespace Slot

/-- A number of the machine size that the location has, but of another width. -/
def Resized (t : Ty) (s : Slot) : Prop :=
  ∃ p q, t = .ofPrimitive p ∧ s = ofPrimitive q ∧ q.strong = p.strong ∧ q.weak ≠ p.weak

end Slot

variable {cat : Catalog} {body : Body} {settings : Settings} {typing : Typing} {t : Ty}
  {a b : Slot}

lemma Rule.stores_of_step {scope : Scope} {i : Nat} {instr : Instr} {stack out : Stack}
    (ht : instr.location? = some t) (hstep : step scope i instr stack = .ok () out) :
    ∃ top rest, stack = top :: rest ∧ (Slot.declared t).stores scope.cat top := by
  have hstored : ∀ {α : Type} {next : Unit → Rule α} {stack mid : Stack} {r : α},
      (popStored scope (.declared t) >>= next) stack = .ok r mid →
      ∃ top rest, stack = top :: rest ∧ (Slot.declared t).stores scope.cat top := by
    intro α next stack mid r h
    obtain ⟨_, rest, hpop, -⟩ := bind_eq_ok_iff.1 h
    obtain ⟨top, rfl, htop⟩ := popStored_eq_ok_iff.1 hpop
    exact ⟨top, rest, rfl, htop⟩
  cases instr with
  | stfld f =>
    cases ht
    obtain ⟨_, mid, hreq, hstep⟩ := bind_eq_ok_iff.1 hstep
    obtain ⟨-, rfl⟩ := require_eq_ok_iff.1 hreq
    exact hstored hstep
  | stsfld f =>
    cases ht
    obtain ⟨_, mid, hreq, hpop⟩ := bind_eq_ok_iff.1 hstep
    obtain ⟨-, rfl⟩ := require_eq_ok_iff.1 hreq
    obtain ⟨top, rfl, htop⟩ := popStored_eq_ok_iff.1 hpop
    exact ⟨top, out, rfl, htop⟩
  | stelem t | stind t | stobj t =>
    cases ht
    exact hstored hstep
  | _ => cases ht

namespace Catalog.Lawful

variable (h : cat.Lawful)
include h

lemma stores_or_resized (hobj : cat.implements.targets EntryId.object = [])
    (ha : (Slot.declared t).stores cat a) (hab : a.accepts cat b) :
    (Slot.declared t).stores cat b ∨ b.Resized t := by
  rcases h.eq_ofPrimitive_or (Slot.declared t) with ⟨p, hp⟩ | hp
  · rw [hp] at ha ⊢
    obtain ⟨q, rfl, hq⟩ := h.stores_ofPrimitive_iff.1 ha
    obtain ⟨r, rfl, hr⟩ := h.accepts_ofPrimitive_iff.1 hab
    have hsize : r.strong = p.strong := hr.trans (Primitive.strong_eq_of_weak_eq hq)
    by_cases hwidth : r.weak = p.weak
    · exact Or.inl (h.stores_ofPrimitive_iff.2 ⟨r, rfl, hwidth⟩)
    · exact Or.inr ⟨p, r, Option.some.inj (congrArg Slot.ty hp), rfl, hsize, hwidth⟩
  · rw [stores_of_none hp] at ha ⊢
    exact Or.inl (h.accepts_trans hobj ha hab)

lemma not_stores_of_resized (hb : b.Resized t) : (Slot.declared t).stores cat b = false := by
  obtain ⟨p, q, rfl, rfl, -, hwidth⟩ := hb
  refine Bool.eq_false_iff.2 fun hst => hwidth ?_
  obtain ⟨r, hr, hrp⟩ := h.stores_ofPrimitive_iff.1 hst
  rw [Slot.ofPrimitive_injective hr, hrp]

end Catalog.Lawful

/-- **Numbers keep their width on the way to memory.** What an edge brings to a store could be
stored in the location that the store names, unless the edge goes backward and brings a number of
another width but of the same machine size. -/
theorem edge_stores_or_resized (hcat : cat.Grown (· ≠ EntryId.object))
    (h : verify cat body settings = .ok typing) :
    ∀ i instr, body.code[i]? = some instr → ∃ entry out, typing.entry? i = some entry ∧
      Rule.stepAt ⟨cat, body, settings⟩ i entry = .ok () out ∧
      ∀ j ∈ instr.successors i, ∀ store t, body.code[j]? = some store →
        store.location? = some t → ∃ top rest, instr.carried out = top :: rest ∧
          ((Slot.declared t).stores cat top = false ↔ j ≤ i ∧ top.Resized t) := by
  have hlaw := hcat.lawful
  have hobj := hcat.targets_object
  obtain ⟨-, htyped⟩ := typed_of_verify hcat h
  intro i instr hinstr
  obtain ⟨entry, out, hentry, hstep, -, -, hedges⟩ := htyped i instr hinstr
  refine ⟨entry, out, hentry, by rw [Rule.stepAt, hinstr]; exact hstep, ?_⟩
  intro j hj store t hstore ht
  obtain ⟨next, left, hnext, hstep', -⟩ := htyped j store hstore
  obtain ⟨-, next', hnext', hedge⟩ := hedges j hj
  rw [hnext] at hnext'
  cases hnext'
  obtain ⟨top', rest', rfl, htop'⟩ := Rule.stores_of_step ht hstep'
  rcases hedge with ⟨hlt, hcov⟩ | ⟨hle, hacc⟩
  · -- forward: the entry stack covers what the edge brings
    obtain ⟨top, rest, hcov, -, hcarried⟩ := List.forall₂_cons_left_iff.1 hcov
    have hstores := (hlaw.covers_trans hobj (Or.inl htop') hcov).stores rfl
    refine ⟨top, rest, hcarried, ?_⟩
    rw [hstores]
    constructor
    · intro hfalse
      cases hfalse
    · rintro ⟨hle, -⟩
      omega
  · -- backward: the entry stack accepts it
    obtain ⟨top, rest, hacc, -, hcarried⟩ := List.forall₂_cons_left_iff.1 (Stack.accepts_iff.1 hacc)
    refine ⟨top, rest, hcarried, ?_⟩
    constructor
    · intro hfalse
      rcases hlaw.stores_or_resized hobj htop' hacc with hstores | hres
      · rw [hfalse] at hstores
        cases hstores
      · exact ⟨hle, hres⟩
    · rintro ⟨-, hres⟩
      exact hlaw.not_stores_of_resized hres

/-- A static field that counts. -/
def totalField : Field := ⟨23, ⟨"total", rfl⟩, .ofPrimitive .int32, true⟩

/-- The class that has the field. -/
def totalCatalog : Catalog :=
  ((Catalog.core.declareClass ⟨"N.C"⟩ EntryId.object).2).declareField totalField

/-- A loop that stores a constant in the field first, and a local ever after. -/
def storeInLoop (p : Primitive) : Body where
  name := "storeInLoop"
  signature := ⟨.object, [], .declared (.entry EntryId.void), true, .direct⟩
  locals := [.ofPrimitive p]
  code := [.ldc .i4, .stsfld totalField, .ldvar (.loc 0), .br 1]
  regions := []

/-- A local of the field's width is stored. -/
theorem edge_stores_uint32 :
    verify totalCatalog (storeInLoop .uint32) {}
        = .ok ⟨#[[], [.ofPrimitive .int32], [], [.ofPrimitive .uint32]]⟩ ∧
      ∃ entry out,
        Typing.entry? ⟨#[[], [.ofPrimitive .int32], [], [.ofPrimitive .uint32]]⟩ 3 = some entry ∧
        Rule.stepAt ⟨totalCatalog, storeInLoop .uint32, {}⟩ 3 entry = .ok () out ∧
        ∀ j ∈ (Instr.br 1).successors 3, ∀ store t,
          (storeInLoop .uint32).code[j]? = some store → store.location? = some t →
          ∃ top rest, (Instr.br 1).carried out = top :: rest ∧
            ((Slot.declared t).stores totalCatalog top = false ↔ j ≤ 3 ∧ top.Resized t) := by
  have hcat : totalCatalog.Grown (· ≠ EntryId.object) :=
    (Catalog.Grown.core.apply (.declareClass ⟨"N.C"⟩ EntryId.object) (by decide) rfl).apply
      (.declareField totalField) trivial trivial
  have h : verify totalCatalog (storeInLoop .uint32) {}
      = .ok ⟨#[[], [.ofPrimitive .int32], [], [.ofPrimitive .uint32]]⟩ := by
    decide +kernel
  exact ⟨h, edge_stores_or_resized hcat h 3 (.br 1) rfl⟩

/-- A local of native size is brought to the store by the backward edge, and does not fit. -/
theorem edge_resizes_intptr :
    verify totalCatalog (storeInLoop .intptr) {}
        = .ok ⟨#[[], [.ofPrimitive .int32], [], [.ofPrimitive .intptr]]⟩ ∧
      Rule.stepAt ⟨totalCatalog, storeInLoop .intptr, {}⟩ 3 [.ofPrimitive .intptr]
        = .ok () [.ofPrimitive .intptr] ∧
      1 ∈ (Instr.br 1).successors 3 ∧ (storeInLoop .intptr).code[1]? = some (.stsfld totalField) ∧
      (Slot.declared totalField.type).stores totalCatalog (.ofPrimitive .intptr) = false := by
  refine ⟨by decide +kernel, rfl, by decide, rfl, by decide +kernel⟩

end StackTyping
