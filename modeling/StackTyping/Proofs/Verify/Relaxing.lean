import StackTyping.Proofs.Verify.Table

/-!
Settings decide what is refused and nothing else.

A limit on the height, empty stacks at try intervals, the places of `ret` and what follows a tail
call are asked of an instruction on top of its rule. None of them changes the stack that the rule
leaves. So a table that passes under some settings is the table under all settings that ask for
no more.
-/

namespace StackTyping

/-- Some settings ask for no more than others. -/
structure Settings.Relaxes (lenient strict : Settings) : Prop where
  maxStack : ∀ m, lenient.maxStack? = some m → ∃ n, strict.maxStack? = some n ∧ n ≤ m
  emptyStackAtTry : lenient.emptyStackAtTry → strict.emptyStackAtTry
  returnFromBlocks : strict.returnFromBlocks → lenient.returnFromBlocks
  checkTailCalls : lenient.checkTailCalls → strict.checkTailCalls

variable {cat : Catalog} {body : Body} {settings lenient strict : Settings} {layout : Layout}
  {i j : Nat} {instr : Instr} {entry out : Stack} {table : Array Stack}

namespace Rule

lemma popArguments_settings (slots : List Slot) :
    popArguments ⟨cat, body, strict⟩ slots = popArguments ⟨cat, body, lenient⟩ slots := by
  induction slots with
  | nil => rfl
  | cons s rest ih =>
    rw [popArguments, popArguments, ih]
    rfl

lemma invoke_settings {m : Method} {dispatch : Dispatch} :
    invoke ⟨cat, body, strict⟩ m dispatch = invoke ⟨cat, body, lenient⟩ m dispatch := by
  rw [invoke, invoke, popArguments_settings]

lemma construct_settings {m : Method} :
    construct ⟨cat, body, strict⟩ i m = construct ⟨cat, body, lenient⟩ i m := by
  rw [construct, construct, popArguments_settings]
  rfl

end Rule

namespace Settings.Relaxes

variable (h : lenient.Relaxes strict)
include h

lemma checkHeight (hheight : strict.checkHeight entry = .ok ()) :
    lenient.checkHeight entry = .ok () := by
  rw [checkHeight_eq_ok_iff] at hheight ⊢
  intro m hm
  obtain ⟨n, hn, hnm⟩ := h.maxStack m hm
  exact Nat.le_trans (hheight n hn) hnm

lemma checkPlace (hplace : layout.checkPlace strict i instr = .ok ()) :
    layout.checkPlace lenient i instr = .ok () := by
  cases instr with
  | ret =>
    simp only [Layout.checkPlace, Fault.check_eq_ok_iff, Bool.or_eq_true] at hplace ⊢
    exact hplace.imp_right h.returnFromBlocks
  | _ => exact hplace

lemma requireTail {flags : Flags}
    (htail : Rule.requireTail ⟨cat, body, strict⟩ i flags entry = .ok () out) :
    Rule.requireTail ⟨cat, body, lenient⟩ i flags entry = .ok () out := by
  simp only [Rule.requireTail, Rule.require_eq_ok_iff, Bool.not_eq_true', Bool.and_eq_false_iff]
    at htail ⊢
  obtain ⟨(hflag | hcheck) | hfollowed, rfl⟩ := htail
  · exact ⟨Or.inl (Or.inl hflag), rfl⟩
  · have hcheck' : lenient.checkTailCalls = false :=
      Bool.eq_false_iff.2 fun hc => by simp [h.checkTailCalls hc] at hcheck
    exact ⟨Or.inl (Or.inr hcheck'), rfl⟩
  · exact ⟨Or.inr hfollowed, rfl⟩

lemma step (hstep : Rule.step ⟨cat, body, strict⟩ i instr entry = .ok () out) :
    Rule.step ⟨cat, body, lenient⟩ i instr entry = .ok () out := by
  cases instr with
  | call m flags =>
    obtain ⟨u, mid, hinvoke, htail⟩ := Rule.bind_eq_ok_iff.1 hstep
    rw [Rule.invoke_settings] at hinvoke
    exact Rule.bind_eq_ok_iff.2 ⟨u, mid, hinvoke, h.requireTail htail⟩
  | callvirt m flags =>
    obtain ⟨v, start, hvirtual, hstep⟩ := Rule.bind_eq_ok_iff.1 hstep
    obtain ⟨u, mid, hinvoke, htail⟩ := Rule.bind_eq_ok_iff.1 hstep
    rw [Rule.invoke_settings] at hinvoke
    exact Rule.bind_eq_ok_iff.2 ⟨v, start, hvirtual,
      Rule.bind_eq_ok_iff.2 ⟨u, mid, hinvoke, h.requireTail htail⟩⟩
  | newobj m =>
    rw [Rule.step, Rule.construct_settings] at hstep
    exact hstep
  | _ => exact hstep

lemma arrivals_eq (hpasses : ∀ k < i, Scope.Passes ⟨cat, body, strict⟩ layout table k) :
    Scope.arrivals ⟨cat, body, lenient⟩ table i j
      = Scope.arrivals ⟨cat, body, strict⟩ table i j := by
  refine congrArg List.flatten (List.map_congr_left fun k hk => ?_)
  obtain ⟨instr, entry, out, hpass⟩ := hpasses k (List.mem_range.1 hk)
  have hlenient : Scope.sends ⟨cat, body, lenient⟩ table k j = _ :=
    Scope.sends_of_step hpass.code_eq hpass.table_eq (h.step hpass.step_eq)
  rw [hlenient, hpass.sends_eq]

lemma tabulates (htable : Scope.Tabulates ⟨cat, body, strict⟩ layout table) :
    Scope.Tabulates ⟨cat, body, lenient⟩ layout table := by
  refine ⟨htable.size, fun i hi => ?_⟩
  obtain ⟨instr, entry, out, hpass⟩ := htable.passes i hi
  have hstart : Scope.startOf ⟨cat, body, lenient⟩ layout table i = .ok entry := by
    rw [Scope.startOf, h.arrivals_eq fun k hk => htable.passes k (Nat.lt_trans hk hi)]
    exact hpass.start_eq
  exact ⟨instr, entry, out,
    { hpass with
      start_eq := hstart
      emptyAtTry := fun hempty => hpass.emptyAtTry (h.emptyStackAtTry hempty)
      entryHeight := h.checkHeight hpass.entryHeight
      place := h.checkPlace hpass.place
      step_eq := h.step hpass.step_eq
      exitHeight := h.checkHeight hpass.exitHeight }⟩

end Settings.Relaxes

/-- **Relaxing settings refuses nothing.** What is accepted under some settings is accepted under
all settings that ask for no more, with the same entry stacks. -/
theorem verify_of_relaxes {typing : Typing} (h : lenient.Relaxes strict)
    (hverify : verify cat body strict = .ok typing) : verify cat body lenient = .ok typing := by
  obtain ⟨hcode, layout, hregions, hends, htable⟩ := tabulates_of_verify hverify
  exact verify_of_tabulates hcode hregions hends (h.tabulates htable)

/-- A method that counts the characters of a string. -/
def countMethod : Method :=
  ⟨EntryId.string, ⟨"count", rfl⟩, [.string], .ofPrimitive .int32, true, false⟩

/-- A try interval that drops a value on the way out, and a tail call after it. -/
def tailAfterTry : Body where
  name := "tailAfterTry"
  signature := ⟨.object, [.declared .string], .ofPrimitive .int32, true, .direct⟩
  locals := []
  code :=
    [.ldvar (.arg 0), .leave 3, .throw, .ldvar (.arg 0), .call countMethod ⟨false, false, true⟩,
      .ret]
  regions := [⟨.typedCatch (.entry EntryId.exception), 0, 2, 2, 1, none⟩]

/-- The strictest settings that accept the body have one stack with the most lenient ones at each
instruction. -/
theorem verify_of_relaxes_tail :
    verify .core tailAfterTry ⟨some 1, true, false, true⟩
        = .ok ⟨#[[], [.declared .string], [.declared (.entry EntryId.exception)], [],
          [.declared .string], [.ofPrimitive .int32]]⟩ ∧
      verify .core tailAfterTry ⟨none, false, true, false⟩
        = .ok ⟨#[[], [.declared .string], [.declared (.entry EntryId.exception)], [],
          [.declared .string], [.ofPrimitive .int32]]⟩ := by
  have hstrict : verify .core tailAfterTry ⟨some 1, true, false, true⟩
      = .ok ⟨#[[], [.declared .string], [.declared (.entry EntryId.exception)], [],
        [.declared .string], [.ofPrimitive .int32]]⟩ := by
    decide +kernel
  have hrelaxes : Settings.Relaxes ⟨none, false, true, false⟩ ⟨some 1, true, false, true⟩ :=
    ⟨fun m hm => (by cases hm), fun _ => rfl, fun _ => rfl, fun _ => rfl⟩
  exact ⟨hstrict, verify_of_relaxes hrelaxes hstrict⟩

end StackTyping
