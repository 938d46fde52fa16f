import StackTyping.Proofs.Layout.Dispatch
import StackTyping.Proofs.Verify.Pass

/-!
The stack that a call starts with.

A call enters a method at its first instruction, with nothing on the stack. The pass types the
first instruction for just that, unless a handler or filter stands there. Such a body is not
refused: nothing says that the first instruction is entered by the call as well as by exceptions,
and so it is typed for an exception that the call does not bring.
-/

namespace StackTyping

namespace Scope

variable {scope : Scope} {layout : Layout} {flow flow' : Flow} {i : Nat}

lemma Visits.first (hv : scope.Visits layout 0 .start flow') :
    flow'.entries[0]? = some (layout.exceptionAt? scope.cat 0).toList := by
  obtain ⟨instr, entry, out, hv⟩ := hv
  rw [hv.entries_eq]
  rcases (entryStack_eq_ok hv.entryStack_eq).1 with ⟨hnone, rfl⟩ | ⟨exception, hexc, rfl⟩
  · rw [hnone]
    rfl
  · rw [hexc]
    rfl

lemma Visits.keeps_first {s : Stack} (hv : scope.Visits layout i flow flow')
    (h : flow.entries[0]? = some s) : flow'.entries[0]? = some s := by
  obtain ⟨instr, entry, out, hv⟩ := hv
  obtain ⟨hlt, -⟩ := Array.getElem?_eq_some_iff.1 h
  rw [hv.entries_eq, Flow.fix, Array.getElem?_push_lt hlt, ← h,
    Array.getElem?_eq_getElem hlt]

end Scope

variable {cat : Catalog} {body : Body} {settings : Settings} {typing : Typing}

/-- The first instruction of an accepted body is typed for the first region that is entered there,
and otherwise for the empty stack. -/
lemma entry_zero (h : verify cat body settings = .ok typing) :
    typing.entry? 0
      = some ((body.regions.find? (0 ∈ ·.entryPoints)).map (·.exception cat)).toList := by
  obtain ⟨hcode, layout, hregions, -, hrun⟩ := exists_run_of_verify h
  obtain ⟨last, hlast, ⟨hlen, -⟩ | hfirst⟩ := Scope.run_induction
    (motive := fun i flow =>
      i = 0 ∧ flow = .start ∨ flow.entries[0]? = some (layout.exceptionAt? cat 0).toList)
    (by
      rintro i flow flow' (⟨rfl, rfl⟩ | hfirst) hv
      · exact Or.inr hv.first
      · exact Or.inr (hv.keeps_first hfirst))
    rfl (Or.inl ⟨rfl, rfl⟩) hrun
  · rw [Nat.zero_add] at hlen
    exact absurd (List.length_eq_zero_iff.1 hlen) hcode
  · rw [Typing.entry?, ← hlast, hfirst, Layout.exceptionAt?_eq_find? hregions]

/-- **Method entry is typed with the empty stack exactly if no handler or filter stands there.**
Otherwise the first instruction is typed for the exception of one. -/
theorem entry_zero_eq_nil_iff (h : verify cat body settings = .ok typing) :
    (typing.entry? 0 = some [] ↔ ∀ r ∈ body.regions, 0 ∉ r.entryPoints) ∧
      ((∃ r ∈ body.regions, 0 ∈ r.entryPoints) →
        ∃ r ∈ body.regions, 0 ∈ r.entryPoints ∧ typing.entry? 0 = some [r.exception cat]) := by
  rw [entry_zero h]
  constructor
  · cases hfind : body.regions.find? (0 ∈ ·.entryPoints) with
    | none => simpa using List.find?_eq_none.1 hfind
    | some r =>
      have hr : 0 ∈ r.entryPoints := by simpa using List.find?_some hfind
      simpa using ⟨r, List.mem_of_find?_eq_some hfind, hr⟩
  · rintro ⟨q, hq, hq0⟩
    obtain ⟨r, hfind⟩ : ∃ r, body.regions.find? (0 ∈ ·.entryPoints) = some r :=
      Option.isSome_iff_exists.1 (List.find?_isSome.2 ⟨q, hq, by simpa using hq0⟩)
    rw [hfind]
    exact ⟨r, List.mem_of_find?_eq_some hfind, by simpa using List.find?_some hfind, rfl⟩

/-- One instruction that is left at once, with a handler that throws again, in this order or the
other. -/
def leaveAndThrow (handlerFirst : Bool) : Body where
  name := "leaveAndThrow"
  signature := ⟨.object, [], .declared (.entry EntryId.void), true, .direct⟩
  locals := []
  code := if handlerFirst then [.throw, .leave 2, .ret] else [.leave 2, .throw, .ret]
  regions :=
    [⟨.typedCatch (.entry EntryId.exception), if handlerFirst then 1 else 0, 1,
      if handlerFirst then 0 else 1, 1, none⟩]

/-- With the protected instruction first, no handler stands there and the method starts with the
empty stack. -/
theorem entry_zero_leave :
    verify .core (leaveAndThrow false) {}
        = .ok ⟨#[[], [.declared (.entry EntryId.exception)], []]⟩ ∧
      (∀ r ∈ (leaveAndThrow false).regions, 0 ∉ r.entryPoints) ∧
      Typing.entry? ⟨#[[], [.declared (.entry EntryId.exception)], []]⟩ 0 = some [] := by
  have h : verify .core (leaveAndThrow false) {}
      = .ok ⟨#[[], [.declared (.entry EntryId.exception)], []]⟩ := by
    decide +kernel
  have hfree : ∀ r ∈ (leaveAndThrow false).regions, 0 ∉ r.entryPoints := by decide
  exact ⟨h, hfree, (entry_zero_eq_nil_iff h).1.2 hfree⟩

/-- With the handler first, the body is accepted though the method starts with an exception on the
stack, and its first rule fails on the stack that a call brings. -/
theorem entry_zero_throw :
    verify .core (leaveAndThrow true) {}
        = .ok ⟨#[[.declared (.entry EntryId.exception)], [], []]⟩ ∧
      Typing.entry? ⟨#[[.declared (.entry EntryId.exception)], [], []]⟩ 0 ≠ some [] ∧
      Rule.stepAt ⟨.core, leaveAndThrow true, {}⟩ 0 [] = .error .emptyStack [] := by
  refine ⟨by decide +kernel, by decide, rfl⟩

end StackTyping
