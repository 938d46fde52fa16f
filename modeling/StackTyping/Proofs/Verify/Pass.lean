import StackTyping.Proofs.Layout.Nesting
import StackTyping.Proofs.Stack
import StackTyping.Verify

/-!
The pass over a body, one instruction at a time.

An instruction hands the stack it leaves on to its successors: the targets it names and, if
control runs on, the next instruction. Visiting it fixes its entry stack, applies its rule and
carries the result to each successor. What such a visit keeps is kept by the whole pass, so
properties of accepted bodies are proved one visit at a time.
-/

namespace StackTyping

namespace Instr

variable {instr : Instr} {out : Stack}

/-- Where control may go from the instruction at a position. -/
def successors (instr : Instr) (i : Nat) : List Nat :=
  instr.targets ++ if instr.fallsThrough then [i + 1] else []

/-- The stack that the successors get: what the instruction leaves, but none from `leave`. -/
def carried (instr : Instr) (out : Stack) : Stack :=
  match instr with
  | .leave _ => []
  | _ => out

lemma carried_of_ne_leave (h : ∀ t, instr ≠ .leave t) : instr.carried out = out := by
  cases instr with
  | leave t => exact absurd rfl (h t)
  | _ => rfl

end Instr

namespace Layout

variable {layout : Layout} {instr : Instr} {source target : Nat}

/-- The instruction may lead from one position to another: `leave` exits a block, all others
branch. -/
def allows (layout : Layout) (instr : Instr) (source target : Nat) : Bool :=
  match instr with
  | .leave _ => layout.canLeave source target
  | _ => layout.canBranch source target

lemma allows_of_ne_leave (h : ∀ t, instr ≠ .leave t) :
    layout.allows instr source target = layout.canBranch source target := by
  cases instr with
  | leave t => exact absurd rfl (h t)
  | _ => rfl

lemma path_of_allows (h : layout.allows instr source target) :
    layout.canBranch source target ∨ layout.canLeave source target := by
  cases instr with
  | leave t => exact Or.inr h
  | _ => exact Or.inl h

end Layout

namespace Flow

variable {cat : Catalog} {flow flow' : Flow} {source target : Nat} {stack : Stack}
  {ts us : List Nat}

lemma lookup_cons_of_ne {j : Nat} (h : j ≠ target) :
    ((target, stack) :: flow.pending).lookup j = flow.pending.lookup j := by
  rw [List.lookup_cons, beq_eq_false_iff_ne.2 h]

/-- Forward, a stack joins what its target has received; backward, the stack fixed at the target
accepts it. -/
lemma carry_cases (h : flow.carry cat source target stack = .ok flow') :
    (source < target ∧ ∃ s, flow' = { flow with pending := (target, s) :: flow.pending } ∧
        (flow.pending.lookup target = none ∧ s = stack ∨
          ∃ earlier, flow.pending.lookup target = some earlier ∧
            Stack.Merges cat earlier stack s)) ∨
      target ≤ source ∧ flow' = flow ∧
        ∃ fixed, flow.entries[target]? = some fixed ∧ fixed.accepts cat stack := by
  unfold carry at h
  split at h
  -- forward: the target is still to be visited
  · rename_i hlt
    refine Or.inl ⟨hlt, ?_⟩
    split at h
    · rename_i hnone
      cases h
      exact ⟨stack, rfl, Or.inl ⟨hnone, rfl⟩⟩
    · rename_i earlier hsome
      obtain ⟨merged, hmerge, h⟩ := bind_eq_ok_iff.1 h
      cases h
      exact ⟨merged, rfl, Or.inr ⟨earlier, hsome, Stack.merges_of_merge hmerge⟩⟩
  -- backward: its stack is fixed
  · rename_i hge
    refine Or.inr ⟨Nat.le_of_not_lt hge, ?_⟩
    split at h
    · cases h
    · rename_i fixed hfixed
      split at h
      · cases h
      · split at h
        · rename_i hacc
          cases h
          exact ⟨rfl, fixed, hfixed, hacc⟩
        · cases h

def carryAll (cat : Catalog) (flow : Flow) (source : Nat) (stack : Stack) :
    List Nat → Except Fault Flow
  | [] => .ok flow
  | target :: rest => do
    let flow ← flow.carry cat source target stack
    carryAll cat flow source stack rest

lemma carryAll_append : flow.carryAll cat source stack (ts ++ us)
    = flow.carryAll cat source stack ts >>= fun mid => mid.carryAll cat source stack us := by
  induction ts generalizing flow with
  | nil => rfl
  | cons t ts ih =>
    simp only [List.cons_append, carryAll, bind_assoc]
    exact congrArg _ (funext fun mid => ih)

lemma carryAll_singleton :
    flow.carryAll cat source stack [target] = flow.carry cat source target stack :=
  bind_pure _

lemma entries_of_carry (h : flow.carry cat source target stack = .ok flow') :
    flow'.entries = flow.entries := by
  rcases carry_cases h with ⟨-, s, rfl, -⟩ | ⟨-, rfl, -⟩ <;> rfl

lemma entries_of_carryAll (h : flow.carryAll cat source stack ts = .ok flow') :
    flow'.entries = flow.entries := by
  induction ts generalizing flow with
  | nil =>
    cases h
    rfl
  | cons t ts ih =>
    obtain ⟨mid, hmid, hrest⟩ := bind_eq_ok_iff.1 h
    rw [ih hrest, entries_of_carry hmid]

end Flow

lemma Settings.checkHeight_eq_ok_iff {settings : Settings} {stack : Stack} {u : Unit} :
    settings.checkHeight stack = .ok u ↔ ∀ m, settings.maxStack? = some m → stack.length ≤ m := by
  unfold checkHeight
  cases settings.maxStack? <;> simp

namespace Scope

variable {scope : Scope} {layout : Layout} {flow mid flow' : Flow} {i : Nat} {instr : Instr}
  {entry out stack : Stack} {ts : List Nat} {code : List Instr} {entries : Array Stack}

/-- What visiting an instruction does: its entry stack is fixed, it may stand where it does, its
rule succeeds, and the stack it leaves goes where control may go. -/
structure Visit (scope : Scope) (layout : Layout) (i : Nat) (flow : Flow) (instr : Instr)
    (entry out : Stack) (flow' : Flow) : Prop where
  code_eq : scope.body.code[i]? = some instr
  entryStack_eq : scope.entryStack layout i (flow.received i) = .ok entry
  place : layout.checkPlace scope.settings i instr = .ok ()
  step_eq : Rule.step scope i instr entry = .ok () out
  height : scope.settings.checkHeight out = .ok ()
  paths : ∀ j ∈ instr.successors i, layout.allows instr i j
  carryAll_eq : (flow.fix entry).carryAll scope.cat i (instr.carried out) (instr.successors i)
    = .ok flow'

def Visits (scope : Scope) (layout : Layout) (i : Nat) (flow flow' : Flow) : Prop :=
  ∃ instr entry out, scope.Visit layout i flow instr entry out flow'

lemma Visit.entries_eq (hv : scope.Visit layout i flow instr entry out flow') :
    flow'.entries = (flow.fix entry).entries :=
  Flow.entries_of_carryAll hv.carryAll_eq

/-- A handler or filter starts with its exception and receives nothing, any other instruction
starts with what it has received. -/
lemma entryStack_eq_ok_iff {received : Stack} :
    scope.entryStack layout i received = .ok entry ↔
      (layout.exceptionAt? scope.cat i = none ∧ entry = received ∨
        ∃ exception, layout.exceptionAt? scope.cat i = some exception ∧ received = [] ∧
          entry = [exception]) ∧
      (scope.settings.emptyStackAtTry → layout.startsTry i → entry = []) ∧
      scope.settings.checkHeight entry = .ok () := by
  -- the checks after the choice of the stack, for any stack
  have hchecked : ∀ stack : Stack,
      (if scope.settings.emptyStackAtTry && layout.startsTry i && !stack.isEmpty then
        .error (.blockEntry stack.length)
      else do
        scope.settings.checkHeight stack
        return stack) = (.ok entry : Except Fault Stack) ↔
      entry = stack ∧ (scope.settings.emptyStackAtTry → layout.startsTry i → entry = []) ∧
        scope.settings.checkHeight entry = .ok () := by
    intro stack
    split
    · rename_i htry
      simp only [Bool.and_eq_true, Bool.not_eq_true', List.isEmpty_eq_false_iff] at htry
      refine ⟨fun h => (by cases h), ?_⟩
      rintro ⟨rfl, hempty, -⟩
      exact absurd (hempty htry.1.1 htry.1.2) htry.2
    · rename_i htry
      simp only [Bool.and_eq_true, Bool.not_eq_true', List.isEmpty_eq_false_iff, not_and,
        not_not, and_imp] at htry
      rw [bind_eq_ok_iff]
      constructor
      · rintro ⟨_, hheight, h⟩
        cases h
        exact ⟨rfl, htry, hheight⟩
      · rintro ⟨rfl, -, hheight⟩
        exact ⟨(), hheight, rfl⟩
  unfold entryStack
  dsimp only
  split
  · rename_i exception hexc
    split
    · rename_i hempty
      rw [List.isEmpty_iff] at hempty
      refine (hchecked [exception]).trans ?_
      simp [hexc, hempty]
    · rename_i hfull
      rw [List.isEmpty_iff] at hfull
      simp [hexc, hfull, bind, Except.bind]
  · rename_i hexc
    refine (hchecked received).trans ?_
    simp [hexc]

lemma entryStack_eq_ok {received : Stack} (h : scope.entryStack layout i received = .ok entry) :
    (layout.exceptionAt? scope.cat i = none ∧ entry = received ∨
        ∃ exception, layout.exceptionAt? scope.cat i = some exception ∧ entry = [exception]) ∧
      scope.settings.checkHeight entry = .ok () := by
  obtain ⟨hstart, -, hheight⟩ := entryStack_eq_ok_iff.1 h
  refine ⟨hstart.imp_right ?_, hheight⟩
  rintro ⟨exception, hexc, -, hentry⟩
  exact ⟨exception, hexc, hentry⟩

lemma exitStack_eq_ok_iff : scope.exitStack layout i instr entry = .ok out ↔
    layout.checkPlace scope.settings i instr = .ok () ∧
      Rule.step scope i instr entry = .ok () out ∧
      scope.settings.checkHeight out = .ok () := by
  unfold exitStack
  rw [bind_eq_ok_iff]
  cases hstep : Rule.step scope i instr entry with
  | error fault left => simp
  | ok u out' =>
    simp only [bind_eq_ok_iff]
    constructor
    · rintro ⟨_, hplace, _, hheight, h⟩
      cases h
      exact ⟨hplace, rfl, hheight⟩
    · rintro ⟨hplace, h, hheight⟩
      cases h
      exact ⟨(), hplace, (), hheight, rfl⟩

lemma follow_eq_ok_iff {target : Nat} : scope.follow layout flow i target stack = .ok flow' ↔
    layout.canBranch i target ∧ flow.carry scope.cat i target stack = .ok flow' := by
  unfold follow
  rw [bind_eq_ok_iff]
  simp [Layout.checkBranch]

lemma followAll_eq_ok_iff : scope.followAll layout flow i stack ts = .ok flow' ↔
    (∀ j ∈ ts, layout.canBranch i j) ∧ flow.carryAll scope.cat i stack ts = .ok flow' := by
  induction ts generalizing flow with
  | nil => simp [followAll, Flow.carryAll]
  | cons t ts ih =>
    simp only [followAll, Flow.carryAll, bind_eq_ok_iff, follow_eq_ok_iff, ih,
      List.forall_mem_cons]
    constructor
    · rintro ⟨mid, ⟨hbranch, hcarry⟩, hbranches, hcarries⟩
      exact ⟨⟨hbranch, hbranches⟩, mid, hcarry, hcarries⟩
    · rintro ⟨⟨hbranch, hbranches⟩, mid, hcarry, hcarries⟩
      exact ⟨mid, ⟨hbranch, hcarry⟩, hbranches, hcarries⟩

/-- Jumps follow the edges to the targets. That a `leave` may go where it goes is checked with its
place. -/
lemma jump_eq_ok_iff (hplace : layout.checkPlace scope.settings i instr = .ok ()) :
    scope.jump layout flow i instr out = .ok flow' ↔
      (∀ j ∈ instr.targets, layout.allows instr i j) ∧
        flow.carryAll scope.cat i (instr.carried out) instr.targets = .ok flow' := by
  by_cases hleave : ∃ t, instr = .leave t
  · obtain ⟨t, rfl⟩ := hleave
    have hallows : ∀ j ∈ (Instr.leave t).targets, layout.allows (.leave t) i j := by
      intro j hj
      rw [List.mem_singleton.1 hj]
      exact Fault.check_eq_ok_iff.1 hplace
    rw [and_iff_right hallows, Instr.targets, Flow.carryAll_singleton]
    rfl
  · have hne : ∀ t, instr ≠ .leave t := fun t ht => hleave ⟨t, ht⟩
    have hjump : scope.jump layout flow i instr out
        = scope.followAll layout flow i out instr.targets := by
      unfold jump
      split
      · rename_i t
        exact absurd rfl (hne t)
      · rfl
    rw [hjump, followAll_eq_ok_iff, Instr.carried_of_ne_leave hne]
    simp only [Layout.allows_of_ne_leave hne]

lemma fallThrough_eq_ok_iff : scope.fallThrough layout flow i instr out = .ok flow' ↔
    (instr.fallsThrough → i + 1 < scope.body.code.length) ∧
      (∀ j ∈ if instr.fallsThrough then [i + 1] else [], layout.allows instr i j) ∧
      flow.carryAll scope.cat i (instr.carried out)
        (if instr.fallsThrough then [i + 1] else []) = .ok flow' := by
  unfold fallThrough
  split
  · rename_i hfalls
    have hne : ∀ t, instr ≠ .leave t := by
      rintro t rfl
      cases hfalls
    rw [Instr.carried_of_ne_leave hne, List.forall_mem_singleton, Layout.allows_of_ne_leave hne]
    split
    · rename_i hlt
      rw [follow_eq_ok_iff, Flow.carryAll_singleton, and_iff_right fun _ => hlt]
    · rename_i hend
      simp [hfalls, hend]
  · rename_i hends
    simp [Flow.carryAll, hends]

lemma visits_of_visit (hinstr : scope.body.code[i]? = some instr)
    (hentry : scope.entryStack layout i (flow.received i) = .ok entry)
    (h : scope.visit layout (flow.fix entry) i instr entry = .ok flow') :
    scope.Visits layout i flow flow' := by
  obtain ⟨out, hexit, h⟩ := bind_eq_ok_iff.1 h
  obtain ⟨mid, hjump, hfall⟩ := bind_eq_ok_iff.1 h
  obtain ⟨hplace, hstep, hheight⟩ := exitStack_eq_ok_iff.1 hexit
  obtain ⟨hjumps, hcarry⟩ := (jump_eq_ok_iff hplace).1 hjump
  obtain ⟨-, hfalls, hcarry'⟩ := fallThrough_eq_ok_iff.1 hfall
  have hcarries : (flow.fix entry).carryAll scope.cat i (instr.carried out) (instr.successors i)
      = .ok flow' := by
    rw [Instr.successors, Flow.carryAll_append]
    exact bind_eq_ok_iff.2 ⟨mid, hcarry, hcarry'⟩
  exact ⟨instr, entry, out, hinstr, hentry, hplace, hstep, hheight,
    List.forall_mem_append.2 ⟨hjumps, hfalls⟩, hcarries⟩

lemma lt_length_of_fallsThrough (hcount : layout.count = scope.body.code.length)
    (hpaths : ∀ j ∈ instr.successors i, layout.allows instr i j) (hfalls : instr.fallsThrough) :
    i + 1 < scope.body.code.length := by
  have hnext : i + 1 ∈ instr.successors i := by simp [Instr.successors, hfalls]
  rw [← hcount]
  exact Layout.lt_count_of_path (Layout.path_of_allows (hpaths _ hnext))

/-- The converse of `visits_of_visit`, for the layout of the body. -/
lemma Visits.exists_visit (hcount : layout.count = scope.body.code.length)
    (hv : scope.Visits layout i flow flow') : ∃ instr entry, scope.body.code[i]? = some instr ∧
      scope.entryStack layout i (flow.received i) = .ok entry ∧
      scope.visit layout (flow.fix entry) i instr entry = .ok flow' := by
  obtain ⟨instr, entry, out, hv⟩ := hv
  obtain ⟨hjumps, hfalls⟩ := List.forall_mem_append.1 hv.paths
  have hcarries := hv.carryAll_eq
  rw [Instr.successors, Flow.carryAll_append, bind_eq_ok_iff] at hcarries
  obtain ⟨mid, hcarry, hcarry'⟩ := hcarries
  have hjump := (jump_eq_ok_iff hv.place).2 ⟨hjumps, hcarry⟩
  have hfall := fallThrough_eq_ok_iff.2
    ⟨lt_length_of_fallsThrough hcount hv.paths, hfalls, hcarry'⟩
  have hexit := exitStack_eq_ok_iff.2 ⟨hv.place, hv.step_eq, hv.height⟩
  exact ⟨instr, entry, hv.code_eq, hv.entryStack_eq,
    bind_eq_ok_iff.2 ⟨out, hexit, bind_eq_ok_iff.2 ⟨mid, hjump, hfall⟩⟩⟩

lemma getElem?_of_drop {all rest : List Instr} (h : all.drop i = instr :: rest) :
    all[i]? = some instr ∧ all.drop (i + 1) = rest := by
  rw [← List.head?_drop, ← List.tail_drop, h]
  exact ⟨rfl, rfl⟩

/-- **What every visit keeps holds at the end of the pass.** -/
theorem run_induction {motive : Nat → Flow → Prop}
    (hvisit : ∀ i flow flow', motive i flow → scope.Visits layout i flow flow' →
      motive (i + 1) flow')
    (hcode : scope.body.code.drop i = code) (hflow : motive i flow)
    (hrun : scope.run layout flow i code = ⟨entries, none⟩) :
    ∃ last, last.entries = entries ∧ motive (i + code.length) last := by
  induction code generalizing i flow with
  | nil =>
    cases hrun
    exact ⟨flow, rfl, hflow⟩
  | cons instr rest ih =>
    obtain ⟨hinstr, hrest⟩ := getElem?_of_drop hcode
    unfold run at hrun
    split at hrun
    · cases hrun
    · rename_i entry hentry
      dsimp only at hrun
      split at hrun
      · cases hrun
      · rename_i flow' hflow'
        obtain ⟨last, hlast, hmotive⟩ :=
          ih hrest (hvisit i flow flow' hflow (visits_of_visit hinstr hentry hflow')) hrun
        refine ⟨last, hlast, ?_⟩
        rwa [List.length_cons, Nat.add_comm rest.length, ← Nat.add_assoc]

/-- **A pass that can always go on comes to its end.** -/
theorem run_progress {motive : Nat → Flow → Prop}
    (hcount : layout.count = scope.body.code.length)
    (hvisit : ∀ i flow, i < scope.body.code.length → motive i flow →
      ∃ flow', scope.Visits layout i flow flow' ∧ motive (i + 1) flow')
    (hcode : scope.body.code.drop i = code) (hflow : motive i flow) :
    ∃ last, scope.run layout flow i code = ⟨last.entries, none⟩ ∧
      motive (i + code.length) last := by
  induction code generalizing i flow with
  | nil => exact ⟨flow, rfl, hflow⟩
  | cons instr rest ih =>
    obtain ⟨hinstr, hrest⟩ := getElem?_of_drop hcode
    obtain ⟨hi, -⟩ := List.getElem?_eq_some_iff.1 hinstr
    obtain ⟨flow', hv, hflow'⟩ := hvisit i flow hi hflow
    obtain ⟨instr', entry, hinstr', hentry, hv⟩ := hv.exists_visit hcount
    rw [hinstr] at hinstr'
    cases hinstr'
    obtain ⟨last, hrun, hlast⟩ := ih hrest hflow'
    refine ⟨last, ?_, ?_⟩
    · rw [run, hentry]
      dsimp only
      rw [hv]
      exact hrun
    · rwa [List.length_cons, Nat.add_comm rest.length, ← Nat.add_assoc]

end Scope

variable {cat : Catalog} {body : Body} {settings : Settings} {typing : Typing}

/-- An accepted body is not empty, its table has a layout, its blocks end as they should, and the
pass over it fixes the entry stacks. -/
lemma exists_run_of_verify (h : verify cat body settings = .ok typing) :
    body.code ≠ [] ∧ ∃ layout : Layout,
      Layout.ofRegions body.regions body.code.length = .ok layout ∧
      layout.checkEnds body.code = .ok () ∧
      Scope.run ⟨cat, body, settings⟩ layout .start 0 body.code = ⟨typing.entries, none⟩ := by
  unfold verify at h
  dsimp only at h
  split at h
  · cases h
  · rename_i hnone
    cases h
    unfold Scope.report at hnone ⊢
    cases hlayout : Scope.layout ⟨cat, body, settings⟩ with
    | error fault =>
      rw [hlayout] at hnone
      cases hnone
    | ok layout =>
      rw [hlayout] at hnone
      unfold Scope.layout at hlayout
      split at hlayout
      · cases hlayout
      · rename_i hcode
        split at hlayout
        · cases hlayout
        · rename_i hregions
          obtain ⟨_, hends, hlayout⟩ := bind_eq_ok_iff.1 hlayout
          cases hlayout
          refine ⟨by simpa using hcode, layout, hregions, hends, ?_⟩
          dsimp only at hnone ⊢
          rw [← hnone]

/-- A body with instructions, a layout and proper block ends is accepted if the pass over it comes
to its end. -/
lemma verify_of_run {layout : Layout} {entries : Array Stack} (hcode : body.code ≠ [])
    (hregions : Layout.ofRegions body.regions body.code.length = .ok layout)
    (hends : layout.checkEnds body.code = .ok ())
    (hrun : Scope.run ⟨cat, body, settings⟩ layout .start 0 body.code = ⟨entries, none⟩) :
    verify cat body settings = .ok ⟨entries⟩ := by
  have hlayout : Scope.layout ⟨cat, body, settings⟩ = .ok layout := by
    unfold Scope.layout
    rw [if_neg (by simpa using hcode)]
    simp only [hregions]
    exact bind_eq_ok_iff.2 ⟨(), hends, rfl⟩
  have hreport : Scope.report ⟨cat, body, settings⟩ = ⟨entries, none⟩ := by
    unfold Scope.report
    rw [hlayout]
    exact hrun
  unfold verify
  simp only [hreport]

/-- **An accepted body has a nested layout**, and what every visit keeps from the start of the
pass holds at its end. -/
theorem exists_pass_of_verify (h : verify cat body settings = .ok typing) :
    ∃ layout : Layout, layout.Nested ∧ layout.count = body.code.length ∧
      ∀ motive : Nat → Flow → Prop, motive 0 .start →
        (∀ i flow flow', motive i flow →
          Scope.Visits ⟨cat, body, settings⟩ layout i flow flow' → motive (i + 1) flow') →
        ∃ last, last.entries = typing.entries ∧ motive body.code.length last := by
  obtain ⟨-, layout, hregions, -, hrun⟩ := exists_run_of_verify h
  obtain ⟨hnested, hcount⟩ := Layout.nested_of_ofRegions hregions
  refine ⟨layout, hnested, hcount, fun motive hstart hvisit => ?_⟩
  obtain ⟨last, hlast, hmotive⟩ := Scope.run_induction hvisit rfl hstart hrun
  rw [Nat.zero_add] at hmotive
  exact ⟨last, hlast, hmotive⟩

end StackTyping
