import StackTyping.Proofs.Rule.Congruence
import StackTyping.Proofs.Verify.Pass

/-!
The entry stacks of an accepted body set the boxed flag on value types and enumerations only, in
every catalog.

Every slot a rule pushes is declared by a member or an operand, was popped before, or stands for
a number; and `box` and the casts set the flag only on what can be boxed. So a rule leaves a
well-boxed stack, also where it fails.

All stacks of the pass have this property. It starts with none, an instruction that nothing has
reached has the empty stack, and a handler has its exception, which is boxed only if it can be. What
an instruction carries on is what its rule leaves, merged with what came before.
-/

namespace StackTyping

variable {cat : Catalog}

/-- The boxed flag of a parameter is set on value types and enumerations only. -/
def Signature.WellBoxed (cat : Catalog) (sig : Signature) : Prop :=
  ∀ s ∈ sig.params, s.WellBoxed cat

instance (cat : Catalog) (sig : Signature) : Decidable (sig.WellBoxed cat) :=
  inferInstanceAs (Decidable (∀ _ ∈ _, _))

/-! ### Rules -/

namespace Rule

variable {scope : Scope} (hsig : scope.body.signature.WellBoxed scope.cat)
include hsig

/-- Arguments are well boxed if the parameters are; locals are as declared. -/
lemma wellBoxed_var? {v : Var} {s : Slot} (hs : scope.var? v = some s) :
    s.WellBoxed scope.cat := by
  cases v with
  | arg i =>
    rcases List.mem_append.1 (List.mem_of_getElem? hs) with hr | hp
    · rw [Option.mem_toList, Signature.receiver?] at hr
      split at hr
      · cases hr
      · split at hr
        · split at hr <;> cases hr
          · exact Slot.wellBoxed_declared _
          · exact Slot.wellBoxed_boxedOf _
        · cases hr
          exact Slot.wellBoxed_declared _
    · exact hsig s hp
  | loc i =>
    obtain ⟨t, -, rfl⟩ := Option.map_eq_some_iff.1 hs
    exact Slot.wellBoxed_declared t

lemma keeps_wellBoxed : scope.Keeps (Slot.WellBoxed scope.cat) :=
  ⟨Slot.wellBoxed_null, Slot.wellBoxed_declared, Slot.wellBoxed_boxedOf,
    fun _ _ => wellBoxed_var? hsig⟩

lemma wellBoxed_of_step {i : Nat} {instr : Instr} {stack out : Stack}
    (hstack : stack.WellBoxed scope.cat) (h : step scope i instr stack = .ok () out) :
    out.WellBoxed scope.cat := (keeps_wellBoxed hsig).of_step hstack h

/-- **Every instruction keeps the stack well boxed**, whether it succeeds or fails. -/
theorem wellBoxed_stepAt (i : Nat) {stack : Stack} (hstack : stack.WellBoxed scope.cat) :
    match stepAt scope i stack with
    | .ok _ out => out.WellBoxed scope.cat
    | .error _ out => out.WellBoxed scope.cat := by
  unfold stepAt
  cases scope.body.code[i]? with
  | none => exact hstack
  | some instr =>
    dsimp only
    cases hrun : step scope i instr stack with
    | ok _ out => exact wellBoxed_of_step hsig hstack hrun
    | error fault out => exact ((keeps_wellBoxed hsig).of_step_error hstack hrun).1

end Rule

/-! ### The pass -/

namespace Flow

variable {flow flow' : Flow} {source target : Nat} {stack s : Stack} {ts : List Nat}

/-- All stacks of the pass are well boxed, those fixed and those received. -/
structure WellBoxed (cat : Catalog) (flow : Flow) : Prop where
  entries : ∀ (i : Nat) (s : Stack), flow.entries[i]? = some s → s.WellBoxed cat
  pending : ∀ (i : Nat) (s : Stack), flow.pending.lookup i = some s → s.WellBoxed cat

lemma WellBoxed.received (h : flow.WellBoxed cat) (i : Nat) : (flow.received i).WellBoxed cat := by
  unfold Flow.received
  cases hi : flow.pending.lookup i with
  | none => exact Stack.wellBoxed_nil
  | some s => exact h.pending i s hi

lemma WellBoxed.fix (h : flow.WellBoxed cat) (hs : s.WellBoxed cat) :
    (flow.fix s).WellBoxed cat := by
  refine ⟨fun i t ht => ?_, h.pending⟩
  rw [Flow.fix, Array.getElem?_push] at ht
  split at ht
  · cases ht
    exact hs
  · exact h.entries i t ht

lemma WellBoxed.carry (h : flow.WellBoxed cat) (hs : stack.WellBoxed cat)
    (hcarry : flow.carry cat source target stack = .ok flow') : flow'.WellBoxed cat := by
  rcases carry_cases hcarry with ⟨-, s, rfl, hnew⟩ | ⟨-, rfl, -⟩
  · have hbox : s.WellBoxed cat := by
      rcases hnew with ⟨-, rfl⟩ | ⟨earlier, hearlier, hm⟩
      · exact hs
      · exact hm.wellBoxed (h.pending _ _ hearlier) hs
    refine ⟨h.entries, fun j t ht => ?_⟩
    by_cases hj : j = target
    · subst hj
      rw [List.lookup_cons_self] at ht
      cases ht
      exact hbox
    · rw [lookup_cons_of_ne hj] at ht
      exact h.pending j t ht
  · exact h

lemma WellBoxed.carryAll (h : flow.WellBoxed cat) (hs : stack.WellBoxed cat)
    (hcarry : flow.carryAll cat source stack ts = .ok flow') : flow'.WellBoxed cat := by
  induction ts generalizing flow with
  | nil =>
    cases hcarry
    exact h
  | cons t ts ih =>
    obtain ⟨mid, hmid, hrest⟩ := bind_eq_ok_iff.1 hcarry
    exact ih (h.carry hs hmid) hrest

end Flow

lemma Layout.wellBoxed_exceptionAt? {layout : Layout} {i : Nat} {s : Slot}
    (h : layout.exceptionAt? cat i = some s) : s.WellBoxed cat := by
  obtain ⟨r, -, h⟩ := List.exists_of_findSome?_eq_some h
  split at h
  · cases h
    unfold Region.exception
    split
    · exact Slot.wellBoxed_boxedOf _
    · exact Slot.wellBoxed_declared _
  · split at h
    · cases h
      exact Slot.wellBoxed_declared _
    · cases h

lemma Instr.wellBoxed_carried {instr : Instr} {out : Stack} (h : out.WellBoxed cat) :
    (instr.carried out).WellBoxed cat := by
  unfold carried
  split
  · exact Stack.wellBoxed_nil
  · exact h

lemma Scope.Visits.wellBoxed {scope : Scope} {layout : Layout} {i : Nat} {flow flow' : Flow}
    (hsig : scope.body.signature.WellBoxed scope.cat) (h : flow.WellBoxed scope.cat)
    (hv : scope.Visits layout i flow flow') : flow'.WellBoxed scope.cat := by
  obtain ⟨instr, entry, out, hv⟩ := hv
  have hboxed : entry.WellBoxed scope.cat := by
    rcases (entryStack_eq_ok hv.entryStack_eq).1 with ⟨-, rfl⟩ | ⟨exception, hexc, rfl⟩
    · exact h.received i
    · exact Stack.wellBoxed_cons.2 ⟨Layout.wellBoxed_exceptionAt? hexc, Stack.wellBoxed_nil⟩
  have hout := Rule.wellBoxed_of_step hsig hboxed hv.step_eq
  exact (h.fix hboxed).carryAll (Instr.wellBoxed_carried hout) hv.carryAll_eq

/-- **The entry stacks of an accepted body are well boxed** if its parameters are. -/
theorem wellBoxed_of_verify {body : Body} {settings : Settings} {typing : Typing} {i : Nat}
    {entry : Stack} (hsig : body.signature.WellBoxed cat)
    (h : verify cat body settings = .ok typing) (hi : typing.entry? i = some entry) :
    entry.WellBoxed cat := by
  obtain ⟨layout, -, -, hpass⟩ := exists_pass_of_verify h
  obtain ⟨last, hlast, hboxed⟩ := hpass (fun _ flow => flow.WellBoxed cat)
    ⟨fun i s hs => by simp [Flow.start] at hs, fun i s hs => by simp [Flow.start] at hs⟩
    fun i flow flow' hflow hv => hv.wellBoxed hsig hflow
  rw [Typing.entry?, ← hlast] at hi
  exact hboxed.entries i entry hi

/-- **The boxed flag is set on value types and enumerations only**, in every catalog and under all
settings, if it is so in the parameters of a body. The stack that an instruction leaves has this
property if the one it starts from has it, whether the rule succeeds or fails. The stack that two
such stacks merge into has it, and so has every entry stack of the body if it is accepted. -/
theorem boxed_flag_kept {body : Body} (hsig : body.signature.WellBoxed cat) (settings : Settings) :
    (∀ (i : Nat) (stack : Stack), stack.WellBoxed cat →
      match Rule.stepAt ⟨cat, body, settings⟩ i stack with
      | .ok _ out => out.WellBoxed cat
      | .error _ out => out.WellBoxed cat) ∧
    (∀ a b merged : Stack, a.WellBoxed cat → b.WellBoxed cat → a.merge cat b = .ok merged →
      merged.WellBoxed cat) ∧
    ∀ typing, verify cat body settings = .ok typing →
      ∀ i entry, typing.entry? i = some entry → entry.WellBoxed cat := by
  refine ⟨fun i stack hstack => ?_, fun a b merged ha hb hm => ?_, fun typing h i entry hi => ?_⟩
  · exact @Rule.wellBoxed_stepAt ⟨cat, body, settings⟩ hsig i stack hstack
  · exact (Stack.merges_of_merge hm).wellBoxed ha hb
  · exact wellBoxed_of_verify hsig h hi

/-- Two paths that meet with boxed numbers of different size, and a handler for boxed numbers. -/
def boxedPaths : Body where
  name := "boxedPaths"
  signature :=
    ⟨.object, [.boxedOf .core (.ofPrimitive .int32), .boxedOf .core (.ofPrimitive .int64)],
      .declared .void, true, .direct⟩
  locals := [.ofPrimitive .int32]
  code :=
    [.ldvar (.loc 0), .brtrue 4, .ldvar (.arg 0), .br 5, .ldvar (.arg 1), .pop, .leave 8, .leave 8,
      .ret]
  regions := [⟨.typedCatch (.ofPrimitive .int32), 6, 1, 7, 1, none⟩]

/-- The paths meet in the common class of all values, whose flag is not set. -/
def boxedPathsTyping : Typing :=
  ⟨#[[], [.ofPrimitive .int32], [], [⟨some (.ofPrimitive .int32), true⟩], [],
    [.declared (.entry EntryId.valueType)], [], [⟨some (.ofPrimitive .int32), true⟩], []]⟩

/-- The body is accepted and its entry stacks are well boxed. So is what the branch leaves when it
fails on a float. -/
theorem boxed_flag_kept_paths : boxedPaths.signature.WellBoxed .core ∧
    verify .core boxedPaths {} = .ok boxedPathsTyping ∧
    (∀ i entry, boxedPathsTyping.entry? i = some entry → entry.WellBoxed .core) ∧
    (∃ fault out, Rule.stepAt ⟨.core, boxedPaths, {}⟩ 1
      [.ofPrimitive .double, .boxedOf .core (.ofPrimitive .int32)] = .error fault out ∧
        out = [⟨some (.ofPrimitive .int32), true⟩] ∧ out.WellBoxed .core) := by
  have hsig : boxedPaths.signature.WellBoxed .core := by decide +kernel
  have h : verify .core boxedPaths {} = .ok boxedPathsTyping := by decide +kernel
  obtain ⟨hsteps, -, hentries⟩ := boxed_flag_kept hsig {}
  have hstack : Stack.WellBoxed .core
      [.ofPrimitive .double, .boxedOf .core (.ofPrimitive .int32)] :=
    Stack.wellBoxed_cons.2 ⟨Slot.wellBoxed_declared _,
      Stack.wellBoxed_cons.2 ⟨Slot.wellBoxed_boxedOf _, Stack.wellBoxed_nil⟩⟩
  exact ⟨hsig, h, hentries _ h, _, _, rfl, rfl, hsteps 1 _ hstack⟩

end StackTyping
