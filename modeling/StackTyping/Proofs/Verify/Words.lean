import StackTyping.Proofs.Code.Related
import StackTyping.Proofs.Layout.Words
import StackTyping.Proofs.Rule.Congruence
import StackTyping.Proofs.Slot.Commute
import StackTyping.Proofs.Verify.Pass

/-!
The pass over a body on a machine with words of 64 bits.

Beyond its layout the pass forms the positions next to an instruction and looks up entry stacks by
position. The machine does not stop at these either. The next position is at most the length of the
body, which is a word; a constructor looks back one position only after it has found a function
there; and a backward edge leads to an instruction whose entry stack has been fixed already. So the
machine comes to the same answer as the pass, whatever the body and the catalog, and no answer is a
look-up that failed.
-/

namespace StackTyping

namespace Words

variable (scope : Scope) (layout : Layout)

/-- The positions next to an instruction that its rule looks at: the next one for a tail call, the
one before for a constructor that follows the load of a function. -/
def neighbours (i : Nat) : Instr → Machine Fault Unit
  | .call _ flags | .callvirt _ flags => if flags.tail then discard (Machine.add i 1) else pure ()
  | .newobj _ =>
    if (scope.body.functionBefore? i).isSome then discard (Machine.sub i 1) else pure ()
  | _ => pure ()

def exitStack (i : Nat) (instr : Instr) (stack : Stack) : Machine Fault Stack := do
  checkPlace layout scope.settings i instr
  neighbours scope i instr
  match Rule.step scope i instr stack with
  | .error fault _ => throw fault
  | .ok _ out => do
    Machine.ofExcept (scope.settings.checkHeight out)
    return out

/-- A backward edge looks up the entry stack of its target, which has to exist. -/
def carry (flow : Flow) (source target : Nat) (stack : Stack) : Machine Fault Flow :=
  if source < target then Machine.ofExcept (flow.carry scope.cat source target stack)
  else do
    let fixed ← Machine.get flow.entries.toList target
    if fixed.length ≠ stack.length then throw (.heights fixed.length stack.length)
    else if fixed.accepts scope.cat stack then pure flow
    else throw (.backwardBranch source target fixed stack)

def follow (flow : Flow) (source target : Nat) (stack : Stack) : Machine Fault Flow := do
  checkBranch layout source target
  carry scope flow source target stack

def followAll (flow : Flow) (source : Nat) (stack : Stack) : List Nat → Machine Fault Flow
  | [] => pure flow
  | target :: rest => do
    let flow ← follow scope layout flow source target stack
    followAll flow source stack rest

def jump (flow : Flow) (i : Nat) (instr : Instr) (out : Stack) : Machine Fault Flow :=
  match instr with
  | .leave target => carry scope flow i target []
  | _ => followAll scope layout flow i out instr.targets

def fallThrough (flow : Flow) (i : Nat) (instr : Instr) (out : Stack) : Machine Fault Flow :=
  if instr.fallsThrough then do
    let next ← Machine.add i 1
    if next < scope.body.code.length then follow scope layout flow i next out
    else throw .fallsOff
  else pure flow

def visit (flow : Flow) (i : Nat) (instr : Instr) (stack : Stack) : Machine Fault Flow := do
  let out ← exitStack scope layout i instr stack
  let flow ← jump scope layout flow i instr out
  fallThrough scope layout flow i instr out

def run (flow : Flow) (i : Nat) : List Instr → Option Report
  | [] => some ⟨flow.entries, none⟩
  | instr :: rest =>
    match scope.entryStack layout i (flow.received i) with
    | .error fault => some ⟨flow.entries, some ⟨some i, fault⟩⟩
    | .ok stack =>
      let flow := flow.fix stack
      match (visit scope layout flow i instr stack).run with
      | none => none
      | some (.error fault) => some ⟨flow.entries, some ⟨some i, fault⟩⟩
      | some (.ok flow) => run flow (i + 1) rest

end Words

namespace Words

variable (scope : Scope)

def layout : Machine Fault Layout :=
  if scope.body.code.isEmpty then throw .emptyBody
  else
    match (ofRegions scope.body.regions scope.body.code.length).run with
    | none => Machine.halt
    | some (.error problem) => throw (.regions problem)
    | some (.ok layout) => do
      checkEnds layout scope.body.code
      return layout

def report : Option Report :=
  match (layout scope).run with
  | none => none
  | some (.error fault) => some ⟨#[], some ⟨none, fault⟩⟩
  | some (.ok layout) => run scope layout .start 0 scope.body.code

/-- Type a method body on the machine; there is no answer if the machine stops. -/
def verify (cat : Catalog) (body : Body) (settings : Settings) :
    Option (Except Rejection Typing) :=
  (report ⟨cat, body, settings⟩).map fun report =>
    match report.rejection? with
    | some rejection => .error rejection
    | none => .ok ⟨report.entries⟩

end Words

/-! ### Look-ups -/

variable {α β : Type} {cat : Catalog} {scope : Scope} {layout : Layout} {flow : Flow}

/-- The check does not fail for a look-up past the end of a table. -/
def Found (x : Except Fault α) : Prop := ∀ k, x ≠ .error (.outOfRange k)

namespace Found

lemma ok (a : α) : Found (.ok a) := fun _ h => by cases h

lemma error {fault : Fault} (h : ∀ k, fault ≠ .outOfRange k) : Found (.error fault : Except _ α) :=
  fun k he => h k (Except.error.inj he)

lemma bind {x : Except Fault α} {f : α → Except Fault β} (hx : Found x)
    (hf : ∀ a, x = .ok a → Found (f a)) : Found (x >>= f) := by
  cases x with
  | error fault => exact .error fun k h => hx k (congrArg _ h)
  | ok a => exact hf a rfl

lemma check (ok : Bool) {fault : Fault} (h : ∀ k, fault ≠ .outOfRange k) :
    Found (Fault.check ok fault) := by
  cases ok with
  | true => exact .ok ()
  | false => exact .error h

lemma forM {l : List α} {f : α → Except Fault PUnit} (h : ∀ a ∈ l, Found (f a)) :
    Found (l.forM f) := by
  induction l with
  | nil => exact .ok PUnit.unit
  | cons a rest ih =>
    obtain ⟨ha, hrest⟩ := List.forall_mem_cons.1 h
    exact ha.bind fun _ _ => ih hrest

lemma fault_ne {x : Except Fault α} {fault : Fault} {i? : Option Nat} (h : Found x)
    (hx : x = .error fault) :
    ∀ r k, some (⟨i?, fault⟩ : Rejection) = some r → r.fault ≠ .outOfRange k := by
  rintro _ k ⟨⟩ hk
  exact h k (hx.trans (congrArg _ hk))

end Found

lemma Slot.found_merge {a b : Slot} : Found (a.merge cat b) := by
  have hfault : Found (.error (.noCommonType a b) : Except Fault Slot) := .error (by simp)
  rcases merge_cases cat a b with hn | ⟨s, hs, hn⟩ | ⟨s, t, hs, ht, hsame | ⟨hne, hr⟩ | hapart⟩
  · rw [merge_null_left hn]
    split
    · exact hfault
    · exact .ok b
  · rw [merge_null_right hs hn]
    split
    · exact hfault
    · exact .ok a
  · rw [merge_same hs ht hsame]
    exact .ok _
  · rw [merge_rigid hs ht hne hr]
    exact hfault
  · by_cases harrays : cat.isArray s ∧ cat.isArray t
    · obtain ⟨x, hx⟩ := Catalog.isArray_iff.1 harrays.1
      obtain ⟨y, hy⟩ := Catalog.isArray_iff.1 harrays.2
      rw [hapart.merge_arrays hx hy]
      split
      · exact .ok _
      · refine Found.bind found_merge fun element _ => ?_
        split
        · exact .ok _
        · exact hfault
    · rw [hapart.merge_named harrays]
      split
      · exact .ok _
      · split
        · exact .ok _
        · exact hfault
termination_by (a.ty.map Ty.rank).getD 0
decreasing_by
  simpa [declared, hs] using Catalog.rank_array_lt hx

lemma Stack.found_mergeSlots (a b : Stack) : Found (mergeSlots cat a b) := by
  fun_induction mergeSlots cat a b with
  | case1 s a t b ih => exact ih.bind fun _ _ => Slot.found_merge.bind fun _ _ => .ok _
  | case2 => exact .ok _

lemma Stack.found_merge (a b : Stack) : Found (a.merge cat b) := by
  unfold merge
  split
  · exact found_mergeSlots a b
  · exact .error (by simp)

lemma Settings.found_checkHeight (settings : Settings) (stack : Stack) :
    Found (settings.checkHeight stack) := by
  unfold checkHeight
  split
  · exact .check _ (by simp)
  · exact .ok ()

lemma Scope.found_entryStack (i : Nat) (received : Stack) :
    Found (scope.entryStack layout i received) := by
  have hchecked : ∀ stack : Stack, Found
      (if scope.settings.emptyStackAtTry && layout.startsTry i && !stack.isEmpty then
        .error (.blockEntry stack.length)
      else do
        scope.settings.checkHeight stack
        return stack) := by
    intro stack
    split
    · exact .error (by simp)
    · exact (scope.settings.found_checkHeight stack).bind fun _ _ => .ok stack
  unfold entryStack
  dsimp only
  split
  · split
    · exact hchecked _
    · exact .error (by simp)
  · exact hchecked received

lemma Scope.bounded_of_layout (h : scope.layout = .ok layout) : layout.Bounded := by
  unfold Scope.layout at h
  split at h
  · cases h
  · split at h
    · cases h
    · rename_i formed hformed
      obtain ⟨_, -, h⟩ := bind_eq_ok_iff.1 h
      cases h
      exact Layout.bounded_of_ofRegions hformed

lemma Layout.found_checkPlace (settings : Settings) (i : Nat) (instr : Instr) :
    Found (layout.checkPlace settings i instr) := by
  cases instr with
  | endfinally | endfilter | rethrow | ret | leave => exact .check _ (by simp)
  | _ => exact .ok ()

/-- A block that is formed is not empty and ends within the body, so its last instruction exists. -/
lemma Layout.found_checkEnd {code : List Instr} {b : Block} (h : layout.Bounded)
    (hcount : layout.count = code.length) (hb : b ∈ layout.blocks) :
    Found (layout.checkEnd code b) := by
  have hlast : b.span.stop - 1 < code.length := by
    have := h b hb
    omega
  unfold checkEnd
  dsimp only
  rw [List.getElem?_eq_getElem hlast]
  split
  · exact .ok ()
  · exact .check _ (by simp)

lemma Layout.found_checkEnds {code : List Instr} (h : layout.Bounded)
    (hcount : layout.count = code.length) : Found (layout.checkEnds code) :=
  .forM fun _ hb => found_checkEnd h hcount hb

lemma Flow.found_carry {source target : Nat} (hsize : source < flow.entries.size) (stack : Stack) :
    Found (flow.carry cat source target stack) := by
  unfold carry
  split
  · split
    · exact .ok _
    · exact (Stack.found_merge _ _).bind fun _ _ => .ok _
  · rename_i hback
    rw [Array.getElem?_eq_getElem (by omega)]
    dsimp only
    split
    · exact .error (by simp)
    · split
      · exact .ok _
      · exact .error (by simp)

/-! ### The machine agrees -/

/-- The machine ends as the check does, and not with a look-up that failed. -/
structure Runs (w : Machine Fault α) (x : Except Fault α) : Prop where
  eq : w = Machine.ofExcept x
  found : Found x

lemma Runs.bind {w : Machine Fault α} {x : Except Fault α} {f : α → Machine Fault β}
    {g : α → Except Fault β} (h : Runs w x) (hfg : ∀ a, x = .ok a → Runs (f a) (g a)) :
    Runs (w >>= f) (x >>= g) := by
  refine ⟨?_, h.found.bind fun a ha => (hfg a ha).found⟩
  rw [h.eq, Machine.ofExcept_bind]
  cases x with
  | error fault => rfl
  | ok a => exact (hfg a rfl).eq

namespace Words

variable {source target i : Nat} {instr : Instr} {stack : Stack}

lemma runs_carry (hsize : source < flow.entries.size) (target : Nat) (stack : Stack) :
    Runs (carry scope flow source target stack) (flow.carry scope.cat source target stack) := by
  refine ⟨?_, flow.found_carry hsize stack⟩
  unfold carry
  by_cases hforward : source < target
  · exact if_pos hforward
  · have hfixed : flow.entries[target]? = some flow.entries[target] :=
      Array.getElem?_eq_getElem (by omega)
    rw [if_neg hforward, Flow.carry, if_neg hforward, hfixed,
      Machine.get_eq (Array.getElem?_toList.trans hfixed), pure_bind]
    dsimp only
    split
    · rfl
    · split <;> rfl

lemma runs_follow (h : layout.Bounded) (hsize : source < flow.entries.size) (target : Nat)
    (stack : Stack) : Runs (follow scope layout flow source target stack)
      (scope.follow layout flow source target stack) :=
  Runs.bind ⟨checkBranch_eq h source target, .check _ (by simp)⟩
    fun _ _ => runs_carry hsize target stack

lemma size_of_follow {flow' : Flow}
    (h : scope.follow layout flow source target stack = .ok flow') :
    flow'.entries.size = flow.entries.size := by
  rw [Flow.entries_of_carry (Scope.follow_eq_ok_iff.1 h).2]

lemma runs_followAll (h : layout.Bounded) (hsize : source < flow.entries.size) (stack : Stack)
    (targets : List Nat) : Runs (followAll scope layout flow source stack targets)
      (scope.followAll layout flow source stack targets) := by
  induction targets generalizing flow with
  | nil => exact ⟨rfl, .ok flow⟩
  | cons target rest ih =>
    exact (runs_follow h hsize target stack).bind fun mid hmid => ih (size_of_follow hmid ▸ hsize)

lemma runs_jump (h : layout.Bounded) (hsize : i < flow.entries.size) (instr : Instr)
    (out : Stack) : Runs (jump scope layout flow i instr out)
      (scope.jump layout flow i instr out) := by
  cases instr with
  | leave target => exact runs_carry hsize target []
  | _ => exact runs_followAll h hsize out _

/-- The next position is a word, because the body is no longer than words count. -/
lemma runs_fallThrough (h : layout.Bounded) (hlen : scope.body.code.length < 2 ^ 64)
    (hi : i < scope.body.code.length) (hsize : i < flow.entries.size) (instr : Instr)
    (out : Stack) : Runs (fallThrough scope layout flow i instr out)
      (scope.fallThrough layout flow i instr out) := by
  unfold fallThrough Scope.fallThrough
  split
  · rw [Machine.add_eq (by omega), pure_bind]
    split
    · exact runs_follow h hsize (i + 1) out
    · exact ⟨rfl, .error (by simp)⟩
  · exact ⟨rfl, .ok flow⟩

/-- Only a constructor with an instruction before it looks back. -/
lemma neighbours_eq (hlen : scope.body.code.length < 2 ^ 64) (hi : i < scope.body.code.length)
    (instr : Instr) : neighbours scope i instr = pure () := by
  unfold neighbours
  split
  · split
    · rw [Machine.add_eq (by omega)]
      rfl
    · rfl
  · split
    · rw [Machine.add_eq (by omega)]
      rfl
    · rfl
  · split
    · rename_i hsome
      obtain ⟨m, hm⟩ := Option.isSome_iff_exists.1 hsome
      have hpos : 1 ≤ i := by
        rcases Body.functionBefore?_eq_some_iff.1 hm with hbefore | ⟨-, hbefore⟩
        · exact Body.le_of_before? hbefore
        · exact Body.le_of_before? hbefore
      rw [Machine.sub_eq hpos]
      rfl
    · rfl
  · rfl

lemma runs_exitStack (h : layout.Bounded) (hlen : scope.body.code.length < 2 ^ 64)
    (hi : i < scope.body.code.length) (instr : Instr) (stack : Stack) :
    Runs (exitStack scope layout i instr stack) (scope.exitStack layout i instr stack) := by
  refine Runs.bind ⟨checkPlace_eq h scope.settings i instr,
    layout.found_checkPlace scope.settings i instr⟩ fun _ _ => ?_
  rw [neighbours_eq hlen hi, pure_bind]
  cases hstep : Rule.step scope i instr stack with
  | error fault left =>
    refine ⟨rfl, .error fun k hk => ?_⟩
    -- the faults of rules are about operands, variables and members
    have hlocal := ((Scope.Keeps.top scope).of_step_error (fun _ _ => trivial) hstep).2
    rw [hk] at hlocal
    cases hlocal
  | ok _ out =>
    exact Runs.bind ⟨rfl, scope.settings.found_checkHeight out⟩ fun _ _ => ⟨rfl, .ok out⟩

lemma entries_of_jump {flow' : Flow} (h : scope.jump layout flow i instr stack = .ok flow') :
    flow'.entries = flow.entries := by
  unfold Scope.jump at h
  split at h
  · exact Flow.entries_of_carry h
  · exact Flow.entries_of_carryAll (Scope.followAll_eq_ok_iff.1 h).2

/-- **One visit**: the machine does not stop, and ends as the visit does. -/
lemma runs_visit (h : layout.Bounded) (hlen : scope.body.code.length < 2 ^ 64)
    (hi : i < scope.body.code.length) (hsize : i < flow.entries.size) (instr : Instr)
    (stack : Stack) : Runs (visit scope layout flow i instr stack)
      (scope.visit layout flow i instr stack) :=
  (runs_exitStack h hlen hi instr stack).bind fun out _ =>
    (runs_jump h hsize instr out).bind fun _ hmid =>
      runs_fallThrough h hlen hi (entries_of_jump hmid ▸ hsize) instr out

/-! ### The whole pass -/

lemma entries_of_visit {flow' : Flow} (h : scope.visit layout flow i instr stack = .ok flow') :
    flow'.entries = flow.entries := by
  obtain ⟨out, -, h⟩ := bind_eq_ok_iff.1 h
  obtain ⟨mid, hjump, hfall⟩ := bind_eq_ok_iff.1 h
  obtain ⟨-, -, hcarry⟩ := Scope.fallThrough_eq_ok_iff.1 hfall
  rw [Flow.entries_of_carryAll hcarry, entries_of_jump hjump]

/-- **The whole pass**, by one visit after the other: an entry stack is fixed for each instruction
that is visited. -/
theorem run_eq (h : layout.Bounded) (hlen : scope.body.code.length < 2 ^ 64) {code : List Instr}
    (hcode : scope.body.code.drop i = code) (hsize : flow.entries.size = i) :
    run scope layout flow i code = some (scope.run layout flow i code) ∧
      ∀ r k, (scope.run layout flow i code).rejection? = some r → r.fault ≠ .outOfRange k := by
  induction code generalizing i flow with
  | nil => exact ⟨rfl, fun r k hr => by cases hr⟩
  | cons instr rest ih =>
    obtain ⟨hinstr, hrest⟩ := Scope.getElem?_of_drop hcode
    obtain ⟨hi, -⟩ := List.getElem?_eq_some_iff.1 hinstr
    unfold run Scope.run
    cases hentry : scope.entryStack layout i (flow.received i) with
    | error fault => exact ⟨rfl, (Scope.found_entryStack i _).fault_ne hentry⟩
    | ok stack =>
      have hfix : (flow.fix stack).entries.size = i + 1 := by
        rw [Flow.fix, Array.size_push, hsize]
      have hruns : Runs (visit scope layout (flow.fix stack) i instr stack)
          (scope.visit layout (flow.fix stack) i instr stack) :=
        runs_visit h hlen hi (by omega) instr stack
      dsimp only
      rw [hruns.eq]
      cases hvisit : scope.visit layout (flow.fix stack) i instr stack with
      | error fault => exact ⟨rfl, hruns.found.fault_ne hvisit⟩
      | ok mid => exact ih hrest (by rw [entries_of_visit hvisit, hfix])

lemma runs_layout (hlen : scope.body.code.length < 2 ^ 64)
    (hregions : 3 * scope.body.regions.length < 2 ^ 64) :
    Runs (Words.layout scope) scope.layout := by
  unfold Words.layout Scope.layout
  split
  · exact ⟨rfl, .error (by simp)⟩
  · rw [ofRegions_eq hlen hregions]
    cases hformed : Layout.ofRegions scope.body.regions scope.body.code.length with
    | error problem => exact ⟨rfl, .error (by simp)⟩
    | ok formed =>
      have hbounded := Layout.bounded_of_ofRegions hformed
      obtain ⟨-, hcount⟩ := Layout.nested_of_ofRegions hformed
      exact Runs.bind ⟨checkEnds_eq hbounded hcount, Layout.found_checkEnds hbounded hcount⟩
        fun _ _ => ⟨rfl, .ok formed⟩

lemma report_eq (hlen : scope.body.code.length < 2 ^ 64)
    (hregions : 3 * scope.body.regions.length < 2 ^ 64) :
    report scope = some scope.report ∧
      ∀ r k, scope.report.rejection? = some r → r.fault ≠ .outOfRange k := by
  have hruns := runs_layout hlen hregions
  unfold report Scope.report
  rw [hruns.eq]
  cases hformed : scope.layout with
  | error fault => exact ⟨rfl, hruns.found.fault_ne hformed⟩
  | ok formed => exact run_eq (Scope.bounded_of_layout hformed) hlen List.drop_zero rfl

end Words

/-- **The pass never stops the machine.** Whatever the catalog, the settings and the body, with
regions, targets and indices anywhere, every sum that is formed is a word, no difference is
negative and every look-up finds its place: the machine comes to the answer of the pass. So a body
is accepted or refused, and no refusal is a look-up that failed. The instructions are counted in
words, and so are the blocks of the exception table, of which a region has at most three. -/
theorem verify_never_stops (cat : Catalog) (body : Body) (settings : Settings)
    (hlen : body.code.length < 2 ^ 64) (hregions : 3 * body.regions.length < 2 ^ 64) :
    Words.verify cat body settings = some (verify cat body settings) ∧
      ∀ r k, verify cat body settings = .error r → r.fault ≠ .outOfRange k := by
  have hreport : Words.report ⟨cat, body, settings⟩ = some (Scope.report ⟨cat, body, settings⟩) ∧
      ∀ r k, (Scope.report ⟨cat, body, settings⟩).rejection? = some r → r.fault ≠ .outOfRange k :=
    Words.report_eq hlen hregions
  obtain ⟨heq, hfound⟩ := hreport
  refine ⟨?_, fun r k hr => ?_⟩
  · rw [Words.verify, heq]
    rfl
  · unfold verify at hr
    dsimp only at hr
    split at hr
    · rename_i rejection hrejection
      cases hr
      exact hfound r k hrejection
    · cases hr

/-- A region whose try interval begins at the last word, so that the sum for its end is no word. -/
def farRegion : Region := ⟨.finally, 2 ^ 64 - 1, 2, 1, 1, none⟩

/-- A method with the region in its exception table. -/
def farTry : Body where
  name := "farTry"
  signature := ⟨.object, [], .declared .void, true, .direct⟩
  locals := []
  code := [.ret, .endfinally]
  regions := [farRegion]

/-- The machine stops if it forms the try interval, but the region is refused before. -/
theorem verify_never_stops_far :
    (Words.tryBlock farRegion : Machine Fault Block).run = none ∧
      Words.verify .core farTry {} =
        some (.error ⟨none, .regions (.outOfBounds farRegion)⟩) := by
  have hrefused : verify .core farTry {} = .error ⟨none, .regions (.outOfBounds farRegion)⟩ := by
    rfl
  refine ⟨by rfl, ?_⟩
  rw [(verify_never_stops .core farTry {} (by decide) (by decide)).1, hrefused]

end StackTyping
