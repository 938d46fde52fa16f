import StackTyping.Proofs.Verify.Boxing

/-!
The entry stacks of an accepted body fit together along every edge.

The pass settles a forward edge when it merges the carried stack into what the target has
received, and later merges only make that more general. When the target is visited, what it has
received becomes its entry stack, since no handler or filter lies at the end of a forward edge.
A backward edge is checked against the entry stack, which never changes again.
-/

namespace StackTyping

variable {cat : Catalog}

namespace Flow

variable {layout : Layout} {flow mid flow' : Flow} {i j source target : Nat} {stack : Stack}
  {ts : List Nat}

/-- The pass has gone on: what was fixed is as before, and what was pending has become more
general. -/
structure Extends (cat : Catalog) (flow flow' : Flow) : Prop where
  size : flow.entries.size ≤ flow'.entries.size
  entries : ∀ k < flow.entries.size, flow'.entries[k]? = flow.entries[k]?
  received : ∀ k < flow.entries.size, flow'.received k = flow.received k
  pending : ∀ j s, flow.pending.lookup j = some s →
    ∃ s', flow'.pending.lookup j = some s' ∧ Stack.Covers cat s' s

lemma Extends.refl (h : cat.Lawful) (flow : Flow) : Extends cat flow flow :=
  ⟨Nat.le_refl _, fun _ _ => rfl, fun _ _ => rfl, fun _ s hs => ⟨s, hs, .refl h s⟩⟩

lemma Extends.trans (h : cat.Lawful) (hobj : cat.implements.targets EntryId.object = [])
    (h₁ : Extends cat flow mid) (h₂ : Extends cat mid flow') : Extends cat flow flow' := by
  refine ⟨Nat.le_trans h₁.size h₂.size, fun k hk => ?_, fun k hk => ?_, fun j s hs => ?_⟩
  · rw [h₂.entries k (Nat.lt_of_lt_of_le hk h₁.size), h₁.entries k hk]
  · rw [h₂.received k (Nat.lt_of_lt_of_le hk h₁.size), h₁.received k hk]
  · obtain ⟨s', hs', hcov⟩ := h₁.pending j s hs
    obtain ⟨s'', hs'', hcov'⟩ := h₂.pending j s' hs'
    exact ⟨s'', hs'', hcov'.trans h hobj hcov⟩

lemma extends_fix (h : cat.Lawful) (flow : Flow) (stack : Stack) :
    Extends cat flow (flow.fix stack) := by
  refine ⟨by simp [fix], fun k hk => ?_, fun _ _ => rfl, fun _ s hs => ⟨s, hs, .refl h s⟩⟩
  rw [fix, Array.getElem?_push_lt hk, Array.getElem?_eq_getElem hk]

/-- The edge from `i` to `j` that carries the stack is settled. -/
inductive Settled (cat : Catalog) (layout : Layout) (flow : Flow) (i j : Nat) (stack : Stack) :
    Prop where
  | forward {s : Stack} (hlt : i < j) (hexc : layout.exceptionAt? cat j = none)
      (hs : flow.pending.lookup j = some s) (hcov : Stack.Covers cat s stack)
  | backward {s : Stack} (hle : j ≤ i) (hs : flow.entries[j]? = some s)
      (hacc : s.accepts cat stack)

lemma Settled.mono (h : cat.Lawful) (hobj : cat.implements.targets EntryId.object = [])
    (hext : Extends cat flow flow') (hset : Settled cat layout flow i j stack) :
    Settled cat layout flow' i j stack := by
  cases hset with
  | forward hlt hexc hs hcov =>
    obtain ⟨s', hs', hcov'⟩ := hext.pending j _ hs
    exact .forward hlt hexc hs' (hcov'.trans h hobj hcov)
  | backward hle hs hacc =>
    obtain ⟨hj, -⟩ := Array.getElem?_eq_some_iff.1 hs
    exact .backward hle (by rw [hext.entries j hj, hs]) hacc

lemma settled_of_carry (h : cat.Lawful) (hsize : flow.entries.size = source + 1)
    (hexc : source < target → layout.exceptionAt? cat target = none)
    (hcarry : flow.carry cat source target stack = .ok flow') :
    Extends cat flow flow' ∧ flow'.entries = flow.entries ∧
      Settled cat layout flow' source target stack := by
  rcases carry_cases hcarry with ⟨hlt, s, rfl, hnew⟩ | ⟨hle, rfl, fixed, hfixed, hacc⟩
  · have hcov : Stack.Covers cat s stack ∧
        ∀ s', flow.pending.lookup target = some s' → Stack.Covers cat s s' := by
      rcases hnew with ⟨hnone, rfl⟩ | ⟨earlier, hearlier, hm⟩
      · refine ⟨.refl h s, fun s' hs' => ?_⟩
        rw [hnone] at hs'
        cases hs'
      · obtain ⟨hcov, hcov'⟩ := hm.covers h
        refine ⟨hcov', fun s' hs' => ?_⟩
        rw [hearlier] at hs'
        cases hs'
        exact hcov
    refine ⟨⟨Nat.le_refl _, fun _ _ => rfl, fun k hk => ?_, fun j s' hs' => ?_⟩, rfl,
      .forward hlt (hexc hlt) List.lookup_cons_self hcov.1⟩
    · -- what lies before the source receives nothing any more
      have hk : k ≠ target := by
        have : k < flow.entries.size := hk
        omega
      simp only [received, lookup_cons_of_ne hk]
    · by_cases hj : j = target
      · subst hj
        exact ⟨s, List.lookup_cons_self, hcov.2 s' hs'⟩
      · exact ⟨s', by rw [lookup_cons_of_ne hj, hs'], .refl h s'⟩
  · exact ⟨.refl h _, rfl, .backward hle hfixed hacc⟩

lemma settled_of_carryAll (h : cat.Lawful)
    (hobj : cat.implements.targets EntryId.object = [])
    (hsize : flow.entries.size = source + 1)
    (hexc : ∀ j ∈ ts, source < j → layout.exceptionAt? cat j = none)
    (hcarry : flow.carryAll cat source stack ts = .ok flow') :
    Extends cat flow flow' ∧ flow'.entries = flow.entries ∧
      ∀ j ∈ ts, Settled cat layout flow' source j stack := by
  induction ts generalizing flow with
  | nil =>
    cases hcarry
    exact ⟨.refl h _, rfl, List.forall_mem_nil _⟩
  | cons t ts ih =>
    obtain ⟨mid, hmid, hrest⟩ := bind_eq_ok_iff.1 hcarry
    obtain ⟨hext, hentries, hset⟩ := settled_of_carry h hsize (hexc t List.mem_cons_self) hmid
    obtain ⟨hext', hentries', hsets⟩ := ih (by rw [hentries, hsize])
      (fun j hj => hexc j (List.mem_cons_of_mem t hj)) hrest
    refine ⟨hext.trans h hobj hext', hentries'.trans hentries, List.forall_mem_cons.2 ⟨?_, hsets⟩⟩
    exact hset.mono h hobj hext'

/-- The instruction at a position was visited: its rule succeeds on its entry stack, within the
height allowed, and its edges are settled. -/
structure Typed (scope : Scope) (layout : Layout) (flow : Flow) (i : Nat) (instr : Instr)
    (entry out : Stack) : Prop where
  code_eq : scope.body.code[i]? = some instr
  entries_eq : flow.entries[i]? = some entry
  step_eq : Rule.step scope i instr entry = .ok () out
  entryHeight : scope.settings.checkHeight entry = .ok ()
  exitHeight : scope.settings.checkHeight out = .ok ()
  edges : ∀ j ∈ instr.successors i, j < layout.count ∧
    Settled scope.cat layout flow i j (instr.carried out)

/-- The pass has visited the first `i` instructions. -/
structure Sound (scope : Scope) (layout : Layout) (i : Nat) (flow : Flow) : Prop where
  size : flow.entries.size = i
  fixed : ∀ k < i, layout.exceptionAt? scope.cat k = none →
    flow.entries[k]? = some (flow.received k)
  typed : ∀ k < i, ∃ instr entry out, Typed scope layout flow k instr entry out

variable {scope : Scope}

lemma Typed.mono (h : scope.cat.Lawful)
    (hobj : scope.cat.implements.targets EntryId.object = [])
    (hext : Extends scope.cat flow flow') {instr : Instr} {entry out : Stack}
    (htyped : Typed scope layout flow i instr entry out) :
    Typed scope layout flow' i instr entry out := by
  obtain ⟨hi, -⟩ := Array.getElem?_eq_some_iff.1 htyped.entries_eq
  exact { htyped with
    entries_eq := by rw [hext.entries i hi, htyped.entries_eq]
    edges := fun j hj => (htyped.edges j hj).imp_right fun hset => hset.mono h hobj hext }

lemma sound_start : Sound scope layout 0 start :=
  ⟨rfl, fun _ hk => absurd hk (Nat.not_lt_zero _), fun _ hk => absurd hk (Nat.not_lt_zero _)⟩

lemma Sound.visits (h : scope.cat.Lawful)
    (hobj : scope.cat.implements.targets EntryId.object = []) (hnested : layout.Nested)
    (hsound : Sound scope layout i flow) (hv : scope.Visits layout i flow flow') :
    Sound scope layout (i + 1) flow' := by
  obtain ⟨instr, entry, out, hv⟩ := hv
  obtain ⟨hstart, hheight⟩ := Scope.entryStack_eq_ok hv.entryStack_eq
  have hsize : (flow.fix entry).entries.size = i + 1 := by simp [fix, hsound.size]
  have hexc : ∀ j ∈ instr.successors i, i < j → layout.exceptionAt? scope.cat j = none :=
    fun j hj hlt => Layout.exceptionAt?_eq_none hnested scope.cat hlt
      (Layout.path_of_allows (hv.paths j hj))
  obtain ⟨hext, hentries, hset⟩ := settled_of_carryAll h hobj hsize hexc hv.carryAll_eq
  have hext' := (extends_fix h flow entry).trans h hobj hext
  have hlast : flow'.entries[i]? = some entry := by
    rw [hentries, fix, ← hsound.size]
    simp
  refine ⟨by rw [hentries, hsize], fun k hk hnone => ?_, fun k hk => ?_⟩
  · rcases Nat.lt_succ_iff_lt_or_eq.1 hk with hk | rfl
    · have hk' : k < flow.entries.size := by rw [hsound.size]; exact hk
      rw [hext'.entries k hk', hext'.received k hk', hsound.fixed k hk hnone]
    · have hk' : k < (flow.fix entry).entries.size := by omega
      rw [hlast, hext.received k hk']
      rcases hstart with ⟨-, rfl⟩ | ⟨exception, hsome, -⟩
      · rfl
      · rw [hnone] at hsome
        cases hsome
  · rcases Nat.lt_succ_iff_lt_or_eq.1 hk with hk | rfl
    · obtain ⟨instr, entry, out, htyped⟩ := hsound.typed k hk
      exact ⟨instr, entry, out, htyped.mono h hobj hext'⟩
    · refine ⟨instr, entry, out, hv.code_eq, hlast, hv.step_eq, hheight, hv.height,
        fun j hj => ⟨?_, hset j hj⟩⟩
      exact Layout.lt_count_of_path (Layout.path_of_allows (hv.paths j hj))

end Flow

variable {body : Body} {settings : Settings} {typing : Typing}

/-- **The entry stacks of an accepted body fit together.** Along a forward edge the stack at the
target covers the one carried, along a backward edge it accepts it. -/
theorem typed_of_verify (hcat : cat.Grown (· ≠ EntryId.object))
    (h : verify cat body settings = .ok typing) :
    typing.entries.size = body.code.length ∧
      ∀ i instr, body.code[i]? = some instr → ∃ entry out, typing.entry? i = some entry ∧
        Rule.step ⟨cat, body, settings⟩ i instr entry = .ok () out ∧
        settings.checkHeight entry = .ok () ∧ settings.checkHeight out = .ok () ∧
        ∀ j ∈ instr.successors i, j < body.code.length ∧ ∃ next, typing.entry? j = some next ∧
          (i < j ∧ Stack.Covers cat next (instr.carried out) ∨
            j ≤ i ∧ next.accepts cat (instr.carried out)) := by
  obtain ⟨layout, hnested, hcount, hpass⟩ := exists_pass_of_verify h
  obtain ⟨last, hlast, hsound⟩ := hpass (Flow.Sound ⟨cat, body, settings⟩ layout)
    Flow.sound_start fun i flow flow' hflow hv =>
      hflow.visits hcat.lawful hcat.targets_object hnested hv
  refine ⟨by rw [← hlast, hsound.size], fun i instr hinstr => ?_⟩
  obtain ⟨hi, -⟩ := List.getElem?_eq_some_iff.1 hinstr
  obtain ⟨instr', entry, out, htyped⟩ := hsound.typed i hi
  obtain rfl := Option.some.inj (hinstr.symm.trans htyped.code_eq)
  refine ⟨entry, out, by rw [Typing.entry?, ← hlast, htyped.entries_eq], htyped.step_eq,
    htyped.entryHeight, htyped.exitHeight, ?_⟩
  intro j hj
  obtain ⟨hlt, hset⟩ := htyped.edges j hj
  rw [hcount] at hlt
  refine ⟨hlt, ?_⟩
  rw [Typing.entry?, ← hlast]
  cases hset with
  | forward hij hexc hs hcov =>
    refine ⟨_, hsound.fixed j hlt hexc, Or.inl ⟨hij, ?_⟩⟩
    rw [Flow.received, hs]
    exact hcov
  | backward hji hs hacc => exact ⟨_, hs, Or.inr ⟨hji, hacc⟩⟩

/-- **An accepted body carries a consistent typing.** Each instruction has an entry stack on which
its rule succeeds, and along every edge, forward or backward, the entry stack of the target
accepts the stack carried there. No stack is taller than the settings allow. -/
theorem verify_consistent (hcat : cat.Grown (· ≠ EntryId.object))
    (hsig : body.signature.WellBoxed cat) (h : verify cat body settings = .ok typing) :
    typing.entries.size = body.code.length ∧
      ∀ i instr, body.code[i]? = some instr → ∃ entry out, typing.entry? i = some entry ∧
        Rule.stepAt ⟨cat, body, settings⟩ i entry = .ok () out ∧
        (∀ m, settings.maxStack? = some m → entry.length ≤ m ∧ out.length ≤ m) ∧
        ∀ j ∈ instr.successors i, j < body.code.length ∧
          ∃ next, typing.entry? j = some next ∧ next.accepts cat (instr.carried out) := by
  obtain ⟨hsize, htyped⟩ := typed_of_verify hcat h
  refine ⟨hsize, fun i instr hinstr => ?_⟩
  obtain ⟨entry, out, hentry, hstep, hheight, hheight', hedges⟩ := htyped i instr hinstr
  have hout := Rule.wellBoxed_of_step hsig (wellBoxed_of_verify hsig h hentry) hstep
  refine ⟨entry, out, hentry, ?_, fun m hm => ?_, fun j hj => ?_⟩
  · rw [Rule.stepAt, hinstr]
    exact hstep
  · exact ⟨Settings.checkHeight_eq_ok_iff.1 hheight m hm,
      Settings.checkHeight_eq_ok_iff.1 hheight' m hm⟩
  · obtain ⟨hlt, next, hnext, ⟨-, hcov⟩ | ⟨-, hacc⟩⟩ := hedges j hj
    · have hboxed := wellBoxed_of_verify hsig h hnext
      have hacc := hcov.accepts hcat.lawful hboxed (Instr.wellBoxed_carried hout)
      exact ⟨hlt, next, hnext, hacc⟩
    · exact ⟨hlt, next, hnext, hacc⟩

/-- A loop around two paths that meet, one with a string and one with an exception. -/
def meetInLoop : Body where
  name := "meetInLoop"
  signature :=
    ⟨.object, [.declared .string, .boxedOf .core (.entry EntryId.exception)],
      .declared (.entry EntryId.void), true, .direct⟩
  locals := [.ofPrimitive .int32]
  code :=
    [.ldvar (.loc 0), .brtrue 4, .ldvar (.arg 0), .br 5, .ldvar (.arg 1), .pop,
      .ldvar (.loc 0), .brtrue 0, .ret]
  regions := []

/-- The paths meet in an object. -/
def meetInLoopTyping : Typing :=
  ⟨#[[], [.ofPrimitive .int32], [], [.declared .string], [], [.declared .object], [],
    [.ofPrimitive .int32], []]⟩

/-- The loop is accepted with one slot of stack, and its typing is consistent. -/
theorem verify_consistent_meetInLoop :
    verify .core meetInLoop { maxStack? := some 1 } = .ok meetInLoopTyping ∧
      meetInLoopTyping.entries.size = meetInLoop.code.length ∧
      ∀ i instr, meetInLoop.code[i]? = some instr →
        ∃ entry out, meetInLoopTyping.entry? i = some entry ∧
          Rule.stepAt ⟨.core, meetInLoop, { maxStack? := some 1 }⟩ i entry = .ok () out ∧
          (∀ m, some 1 = some m → entry.length ≤ m ∧ out.length ≤ m) ∧
          ∀ j ∈ instr.successors i, j < meetInLoop.code.length ∧
            ∃ next, meetInLoopTyping.entry? j = some next ∧
              next.accepts .core (instr.carried out) := by
  have h : verify .core meetInLoop { maxStack? := some 1 } = .ok meetInLoopTyping := by
    decide +kernel
  exact ⟨h, verify_consistent .core (by decide +kernel) h⟩

end StackTyping
