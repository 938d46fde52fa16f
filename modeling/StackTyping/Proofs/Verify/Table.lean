import StackTyping.Proofs.Verify.Pass

/-!
The pass described one instruction at a time.

The stack on entry to an instruction depends on the instructions before it alone: it is the merge
of the stacks that they carry there, in the order in which they do, or the exception of a handler
or filter. A table of stacks that obeys this and passes every check is what the pass computes. So
nothing that is carried forward gets lost, is merged twice or is left over, although the pass
interleaves merging and checking.
-/

namespace StackTyping

namespace Stack

variable {cat : Catalog} {stack u : Stack} {arrived more : List Stack} {pending? : Option Stack}
  {t j : Nat} {ts us : List Nat}

/-- The stack where any number of paths meet, merged in the order of their arrival. It is empty
where none arrives. -/
def mergeAll (cat : Catalog) : List Stack → Except Fault Stack
  | [] => .ok []
  | first :: rest => rest.foldlM (Stack.merge cat) first

/-- A stack, once for each time that a position is among the targets it is carried to. -/
def sentTo (stack : Stack) (ts : List Nat) (j : Nat) : List Stack :=
  ts.flatMap fun t => if t = j then [stack] else []

lemma mergeAll_concat (h : arrived ≠ []) : mergeAll cat (arrived ++ [stack])
    = mergeAll cat arrived >>= fun merged => Stack.merge cat merged stack := by
  cases arrived with
  | nil => exact absurd rfl h
  | cons first rest => simp [mergeAll, List.foldlM_append]

lemma exists_mergeAll_of_append (h : mergeAll cat (arrived ++ more) = .ok u) :
    ∃ merged, mergeAll cat arrived = .ok merged := by
  cases arrived with
  | nil => exact ⟨[], rfl⟩
  | cons first rest =>
    rw [List.cons_append, mergeAll, List.foldlM_append] at h
    obtain ⟨merged, hmerged, -⟩ := bind_eq_ok_iff.1 h
    exact ⟨merged, hmerged⟩

lemma sentTo_nil : sentTo stack [] j = [] := rfl

lemma sentTo_cons :
    sentTo stack (t :: ts) j = (if t = j then [stack] else []) ++ sentTo stack ts j := rfl

lemma sentTo_append : sentTo stack (ts ++ us) j = sentTo stack ts j ++ sentTo stack us j :=
  List.flatMap_append

lemma sentTo_eq_nil (h : j ∉ ts) : sentTo stack ts j = [] := by
  refine List.flatMap_eq_nil_iff.2 fun t ht => if_neg ?_
  rintro rfl
  exact h ht

/-- What is pending at a position is the merge of what has arrived there, and nothing is pending
before anything has arrived. -/
def Pends (cat : Catalog) (arrived : List Stack) : Option Stack → Prop
  | none => arrived = []
  | some merged => arrived ≠ [] ∧ mergeAll cat arrived = .ok merged

lemma Pends.mergeAll_eq (h : Pends cat arrived pending?) :
    mergeAll cat arrived = .ok (pending?.getD []) := by
  cases pending? with
  | none =>
    rw [show arrived = [] from h]
    rfl
  | some merged => exact h.2

end Stack

/-! ### What the pass holds -/

namespace Flow

variable {cat : Catalog} {flow flow' : Flow} {source target i : Nat} {stack : Stack}
  {ts : List Nat} {arrived : Nat → List Stack}

/-- From position `i` on, what is pending is the merge of what has arrived. -/
def Holds (cat : Catalog) (arrived : Nat → List Stack) (i : Nat) (flow : Flow) : Prop :=
  ∀ j, i ≤ j → Stack.Pends cat (arrived j) (flow.pending.lookup j)

/-- Forward, one more stack has arrived at the target. -/
lemma carry_forward_iff (hlt : source < target)
    (h : Stack.Pends cat (arrived target) (flow.pending.lookup target)) :
    flow.carry cat source target stack = .ok flow' ↔
      ∃ merged, Stack.mergeAll cat (arrived target ++ [stack]) = .ok merged ∧
        flow' = { flow with pending := (target, merged) :: flow.pending } := by
  unfold carry
  rw [if_pos hlt]
  cases hpending : flow.pending.lookup target with
  | none =>
    rw [hpending] at h
    rw [show arrived target = [] from h]
    simp [Stack.mergeAll, pure, Except.pure, eq_comm]
  | some earlier =>
    rw [hpending] at h
    rw [Stack.mergeAll_concat h.1, h.2]
    simp only [bind_eq_ok_iff]
    constructor
    · rintro ⟨merged, hmerged, hflow⟩
      cases hflow
      exact ⟨merged, ⟨earlier, rfl, hmerged⟩, rfl⟩
    · rintro ⟨merged, ⟨_, hearlier, hmerged⟩, rfl⟩
      cases hearlier
      exact ⟨merged, hmerged, rfl⟩

/-- Backward, the stack fixed at the target accepts the one carried. -/
lemma carry_backward_iff (hle : target ≤ source) :
    flow.carry cat source target stack = .ok flow' ↔
      flow' = flow ∧ ∃ fixed, flow.entries[target]? = some fixed ∧ fixed.accepts cat stack := by
  constructor
  · intro hcarry
    rcases carry_cases hcarry with ⟨hlt, -⟩ | ⟨-, hflow, hfixed⟩
    · exact absurd hlt (Nat.not_lt.2 hle)
    · exact ⟨hflow, hfixed⟩
  · rintro ⟨rfl, fixed, hfixed, hacc⟩
    have hheights := (Stack.accepts_iff.1 hacc).length_eq
    simp [carry, Nat.not_lt.2 hle, hfixed, hheights, hacc]

lemma accepts_of_carryAll (h : flow.carryAll cat source stack ts = .ok flow')
    (htarget : target ∈ ts) (hle : target ≤ source) :
    ∃ fixed, flow.entries[target]? = some fixed ∧ fixed.accepts cat stack := by
  induction ts generalizing flow with
  | nil => cases htarget
  | cons t ts ih =>
    obtain ⟨mid, hmid, hrest⟩ := bind_eq_ok_iff.1 h
    rcases List.mem_cons.1 htarget with rfl | htarget
    · exact ((carry_backward_iff hle).1 hmid).2
    · rw [← entries_of_carry hmid]
      exact ih hrest htarget

lemma Holds.carry (h : flow.Holds cat arrived (source + 1))
    (hcarry : flow.carry cat source target stack = .ok flow') :
    flow'.Holds cat (fun j => arrived j ++ if target = j then [stack] else []) (source + 1) := by
  intro j hj
  dsimp only
  rcases Nat.lt_or_ge source target with hlt | hle
  · obtain ⟨merged, hmerged, rfl⟩ := (carry_forward_iff hlt (h target hlt)).1 hcarry
    by_cases htarget : target = j
    · subst htarget
      rw [if_pos rfl, List.lookup_cons_self]
      exact ⟨by simp, hmerged⟩
    · rw [if_neg htarget, List.append_nil, lookup_cons_of_ne (Ne.symm htarget)]
      exact h j hj
  · obtain ⟨rfl, -⟩ := (carry_backward_iff hle).1 hcarry
    have htarget : target ≠ j := by omega
    rw [if_neg htarget, List.append_nil]
    exact h j hj

/-- Nothing that is carried forward gets lost or is merged twice. -/
lemma Holds.carryAll (h : flow.Holds cat arrived (source + 1))
    (hcarry : flow.carryAll cat source stack ts = .ok flow') :
    flow'.Holds cat (fun j => arrived j ++ stack.sentTo ts j) (source + 1) := by
  induction ts generalizing flow arrived with
  | nil =>
    cases hcarry
    intro j hj
    dsimp only
    rw [Stack.sentTo_nil, List.append_nil]
    exact h j hj
  | cons t ts ih =>
    obtain ⟨mid, hmid, hrest⟩ := bind_eq_ok_iff.1 hcarry
    intro j hj
    dsimp only
    rw [Stack.sentTo_cons, ← List.append_assoc]
    exact ih (h.carry hmid) hrest j hj

/-- A stack can be carried to all targets if everything merges at those ahead, and if it is accepted
at those behind. -/
lemma Holds.exists_carryAll (h : flow.Holds cat arrived (source + 1))
    (hahead : ∀ j ∈ ts, source < j →
      ∃ merged, Stack.mergeAll cat (arrived j ++ stack.sentTo ts j) = .ok merged)
    (hbehind : ∀ j ∈ ts, j ≤ source →
      ∃ fixed, flow.entries[j]? = some fixed ∧ fixed.accepts cat stack) :
    ∃ flow', flow.carryAll cat source stack ts = .ok flow' := by
  induction ts generalizing flow arrived with
  | nil => exact ⟨flow, rfl⟩
  | cons t ts ih =>
    obtain ⟨mid, hmid⟩ : ∃ mid, flow.carry cat source t stack = .ok mid := by
      rcases Nat.lt_or_ge source t with hlt | hle
      -- everything that arrives at `t` merges, so what has arrived up to now does
      · obtain ⟨merged, hmerged⟩ := hahead t List.mem_cons_self hlt
        rw [Stack.sentTo_cons, if_pos rfl, ← List.append_assoc] at hmerged
        obtain ⟨first, hfirst⟩ := Stack.exists_mergeAll_of_append hmerged
        exact ⟨_, (carry_forward_iff hlt (h t hlt)).2 ⟨first, hfirst, rfl⟩⟩
      · exact ⟨flow, (carry_backward_iff hle).2 ⟨rfl, hbehind t List.mem_cons_self hle⟩⟩
    have hentries := entries_of_carry hmid
    obtain ⟨flow', hflow'⟩ := ih (h.carry hmid)
      (fun j hj hlt => by
        rw [List.append_assoc, ← Stack.sentTo_cons]
        exact hahead j (List.mem_cons_of_mem t hj) hlt)
      (fun j hj hle => by
        rw [hentries]
        exact hbehind j (List.mem_cons_of_mem t hj) hle)
    exact ⟨flow', bind_eq_ok_iff.2 ⟨mid, hmid, hflow'⟩⟩

end Flow

/-! ### Tables of entry stacks -/

namespace Scope

variable {scope : Scope} {layout : Layout} {table table' : Array Stack} {flow flow' : Flow}
  {i j : Nat} {instr : Instr} {entry out : Stack}

/-- What the instruction at position `i` carries to position `j` if it starts as the table says,
once for each edge between the two. -/
def sends (scope : Scope) (table : Array Stack) (i j : Nat) : List Stack :=
  match scope.body.code[i]?, table[i]? with
  | some instr, some entry =>
    match Rule.step scope i instr entry with
    | .ok _ out => (instr.carried out).sentTo (instr.successors i) j
    | .error _ _ => []
  | _, _ => []

/-- What the first `i` instructions carry to position `j`, in order. -/
def arrivals (scope : Scope) (table : Array Stack) (i j : Nat) : List Stack :=
  (List.range i).flatMap fun k => scope.sends table k j

/-- The stack that an instruction starts with, as the instructions before it determine it: the
exception of a handler or filter, or the merge of what arrives. -/
def startOf (scope : Scope) (layout : Layout) (table : Array Stack) (i : Nat) :
    Except Fault Stack :=
  match layout.exceptionAt? scope.cat i with
  | some exception => .ok [exception]
  | none => Stack.mergeAll scope.cat (scope.arrivals table i i)

/-- The table has the right stack for the instruction at a position, and the instruction passes
every check with it. -/
structure Pass (scope : Scope) (layout : Layout) (table : Array Stack) (i : Nat) (instr : Instr)
    (entry out : Stack) : Prop where
  code_eq : scope.body.code[i]? = some instr
  table_eq : table[i]? = some entry
  start_eq : scope.startOf layout table i = .ok entry
  emptyAtTry : scope.settings.emptyStackAtTry → layout.startsTry i → entry = []
  entryHeight : scope.settings.checkHeight entry = .ok ()
  place : layout.checkPlace scope.settings i instr = .ok ()
  step_eq : Rule.step scope i instr entry = .ok () out
  exitHeight : scope.settings.checkHeight out = .ok ()
  paths : ∀ j ∈ instr.successors i, layout.allows instr i j
  behind : ∀ j ∈ instr.successors i, j ≤ i →
    ∃ next, table[j]? = some next ∧ next.accepts scope.cat (instr.carried out)
  falls : instr.fallsThrough → i + 1 < scope.body.code.length

def Passes (scope : Scope) (layout : Layout) (table : Array Stack) (i : Nat) : Prop :=
  ∃ instr entry out, scope.Pass layout table i instr entry out

/-- The table has one stack for each instruction, and all of them pass. -/
structure Tabulates (scope : Scope) (layout : Layout) (table : Array Stack) : Prop where
  size : table.size = scope.body.code.length
  passes : ∀ i < scope.body.code.length, scope.Passes layout table i

lemma Tabulates.pass (h : scope.Tabulates layout table)
    (hinstr : scope.body.code[i]? = some instr) :
    ∃ entry out, scope.Pass layout table i instr entry out := by
  obtain ⟨hi, -⟩ := List.getElem?_eq_some_iff.1 hinstr
  obtain ⟨instr', entry, out, hpass⟩ := h.passes i hi
  obtain rfl := Option.some.inj (hinstr.symm.trans hpass.code_eq)
  exact ⟨entry, out, hpass⟩

lemma startOf_of_none (h : layout.exceptionAt? scope.cat i = none) :
    scope.startOf layout table i = Stack.mergeAll scope.cat (scope.arrivals table i i) := by
  rw [startOf, h]

lemma startOf_of_some {exception : Slot} (h : layout.exceptionAt? scope.cat i = some exception) :
    scope.startOf layout table i = .ok [exception] := by
  rw [startOf, h]

lemma sends_of_step (hinstr : scope.body.code[i]? = some instr) (hentry : table[i]? = some entry)
    (hstep : Rule.step scope i instr entry = .ok () out) :
    scope.sends table i j = (instr.carried out).sentTo (instr.successors i) j := by
  rw [sends, hinstr, hentry]
  dsimp only
  rw [hstep]

lemma Pass.sends_eq (hpass : scope.Pass layout table i instr entry out) (j : Nat) :
    scope.sends table i j = (instr.carried out).sentTo (instr.successors i) j :=
  sends_of_step hpass.code_eq hpass.table_eq hpass.step_eq

lemma arrivals_succ :
    scope.arrivals table (i + 1) j = scope.arrivals table i j ++ scope.sends table i j := by
  simp [arrivals, List.range_succ]

/-- What arrives early is the first part of what arrives in the end. -/
lemma exists_arrivals_append {k : Nat} (h : i ≤ k) :
    ∃ more, scope.arrivals table k j = scope.arrivals table i j ++ more := by
  induction k, h using Nat.le_induction with
  | base => exact ⟨[], (List.append_nil _).symm⟩
  | succ k _ ih =>
    obtain ⟨more, hmore⟩ := ih
    exact ⟨more ++ scope.sends table k j, by rw [arrivals_succ, hmore, List.append_assoc]⟩

lemma arrivals_congr (h : ∀ k < i, table'[k]? = table[k]?) :
    scope.arrivals table' i j = scope.arrivals table i j := by
  refine congrArg List.flatten (List.map_congr_left fun k hk => ?_)
  rw [sends, sends, h k (List.mem_range.1 hk)]

/-- Whether an instruction passes depends on the table up to that instruction alone. -/
lemma Passes.congr (h : ∀ k ≤ i, table'[k]? = table[k]?) (hpass : scope.Passes layout table i) :
    scope.Passes layout table' i := by
  obtain ⟨instr, entry, out, hpass⟩ := hpass
  have htable : table'[i]? = some entry := by rw [h i (Nat.le_refl i), hpass.table_eq]
  have hstart : scope.startOf layout table' i = .ok entry := by
    rw [startOf, arrivals_congr fun k hk => h k (Nat.le_of_lt hk)]
    exact hpass.start_eq
  have hbehind : ∀ j ∈ instr.successors i, j ≤ i →
      ∃ next, table'[j]? = some next ∧ next.accepts scope.cat (instr.carried out) := by
    intro j hj hle
    rw [h j hle]
    exact hpass.behind j hj hle
  exact ⟨instr, entry, out,
    { hpass with table_eq := htable, start_eq := hstart, behind := hbehind }⟩

/-! ### The pass fills the table -/

/-- The pass has fixed the first `i` stacks and holds what arrives at the others. -/
structure Tracks (scope : Scope) (i : Nat) (flow : Flow) : Prop where
  size : flow.entries.size = i
  holds : flow.Holds scope.cat (scope.arrivals flow.entries i) i

lemma tracks_start : scope.Tracks 0 .start := ⟨rfl, fun _ _ => rfl⟩

lemma Tracks.mergeAll_eq (h : scope.Tracks i flow) :
    Stack.mergeAll scope.cat (scope.arrivals flow.entries i i) = .ok (flow.received i) :=
  (h.holds i (Nat.le_refl i)).mergeAll_eq

lemma Tracks.getElem?_fix (h : scope.Tracks i flow) (entry : Stack) :
    (∀ k < i, (flow.fix entry).entries[k]? = flow.entries[k]?) ∧
      (flow.fix entry).entries[i]? = some entry := by
  constructor
  · intro k hk
    rw [← h.size] at hk
    rw [Flow.fix, Array.getElem?_push_lt hk, Array.getElem?_eq_getElem hk]
  · rw [Flow.fix, ← h.size]
    simp

lemma Tracks.visits (h : scope.Tracks i flow) (hv : scope.Visits layout i flow flow') :
    scope.Tracks (i + 1) flow' := by
  obtain ⟨instr, entry, out, hv⟩ := hv
  obtain ⟨hbelow, hnew⟩ := h.getElem?_fix entry
  have hfixed : (flow.fix entry).Holds scope.cat (scope.arrivals flow.entries i) (i + 1) :=
    fun j hj => h.holds j (Nat.le_of_succ_le hj)
  refine ⟨by simp [hv.entries_eq, Flow.fix, h.size], fun j hj => ?_⟩
  rw [hv.entries_eq, arrivals_succ, arrivals_congr hbelow, sends_of_step hv.code_eq hnew hv.step_eq]
  exact hfixed.carryAll hv.carryAll_eq j hj

lemma Tracks.passes (hcount : layout.count = scope.body.code.length) (h : scope.Tracks i flow)
    (hv : scope.Visits layout i flow flow') : scope.Passes layout flow'.entries i := by
  obtain ⟨instr, entry, out, hv⟩ := hv
  obtain ⟨hbelow, hnew⟩ := h.getElem?_fix entry
  obtain ⟨hfrom, htry, hheight⟩ := entryStack_eq_ok_iff.1 hv.entryStack_eq
  have hstart : scope.startOf layout (flow.fix entry).entries i = .ok entry := by
    rcases hfrom with ⟨hnone, rfl⟩ | ⟨exception, hexc, -, rfl⟩
    · rw [startOf_of_none hnone, arrivals_congr hbelow]
      exact h.mergeAll_eq
    · exact startOf_of_some hexc
  rw [hv.entries_eq]
  exact ⟨instr, entry, out,
    { hv with
      table_eq := hnew
      start_eq := hstart
      emptyAtTry := htry
      entryHeight := hheight
      exitHeight := hv.height
      behind := fun _ hj hle => Flow.accepts_of_carryAll hv.carryAll_eq hj hle
      falls := lt_length_of_fallsThrough hcount hv.paths }⟩

/-! ### The table drives the pass -/

/-- No edge leads forward to a handler or filter. -/
lemma arrivals_eq_nil (hnested : layout.Nested) (hpasses : ∀ k < i, scope.Passes layout table k)
    {exception : Slot} (hexc : layout.exceptionAt? scope.cat i = some exception) :
    scope.arrivals table i i = [] := by
  refine List.flatMap_eq_nil_iff.2 fun k hk => ?_
  rw [List.mem_range] at hk
  obtain ⟨instr, entry, out, hpass⟩ := hpasses k hk
  rw [hpass.sends_eq]
  refine Stack.sentTo_eq_nil fun hedge => ?_
  have hpath := Layout.path_of_allows (hpass.paths i hedge)
  rw [Layout.exceptionAt?_eq_none hnested scope.cat hk hpath] at hexc
  cases hexc

lemma Tracks.entryStack_eq (hnested : layout.Nested) (h : scope.Tracks i flow)
    (hagree : ∀ k < i, flow.entries[k]? = table[k]?)
    (hpasses : ∀ k < i, scope.Passes layout table k)
    (hpass : scope.Pass layout table i instr entry out) :
    scope.entryStack layout i (flow.received i) = .ok entry := by
  have hreceived := h.mergeAll_eq
  have hstart := hpass.start_eq
  rw [arrivals_congr hagree] at hreceived
  refine entryStack_eq_ok_iff.2 ⟨?_, hpass.emptyAtTry, hpass.entryHeight⟩
  cases hexc : layout.exceptionAt? scope.cat i with
  | none =>
    rw [startOf_of_none hexc, hreceived] at hstart
    exact Or.inl ⟨rfl, (Except.ok.inj hstart).symm⟩
  | some exception =>
    rw [startOf_of_some hexc] at hstart
    rw [arrivals_eq_nil hnested hpasses hexc] at hreceived
    exact Or.inr ⟨exception, rfl, (Except.ok.inj hreceived).symm, (Except.ok.inj hstart).symm⟩

/-- **The pass can always go on**, as long as it has followed the table so far. -/
lemma Tracks.exists_visits (hnested : layout.Nested)
    (hcount : layout.count = scope.body.code.length) (htable : scope.Tabulates layout table)
    (hi : i < scope.body.code.length) (h : scope.Tracks i flow)
    (hagree : ∀ k < i, flow.entries[k]? = table[k]?) :
    ∃ flow', scope.Visits layout i flow flow' ∧ ∀ k < i + 1, flow'.entries[k]? = table[k]? := by
  obtain ⟨instr, entry, out, hpass⟩ := htable.passes i hi
  obtain ⟨hbelow, hnew⟩ := h.getElem?_fix entry
  have hagree' : ∀ k < i + 1, (flow.fix entry).entries[k]? = table[k]? := by
    intro k hk
    rcases Nat.lt_succ_iff_lt_or_eq.1 hk with hk | rfl
    · rw [hbelow k hk, hagree k hk]
    · rw [hnew, hpass.table_eq]
  have hholds : (flow.fix entry).Holds scope.cat (scope.arrivals table i) (i + 1) := by
    intro j hj
    rw [← arrivals_congr hagree]
    exact h.holds j (Nat.le_of_succ_le hj)
  have hahead : ∀ j ∈ instr.successors i, i < j → ∃ merged, Stack.mergeAll scope.cat
      (scope.arrivals table i j ++ (instr.carried out).sentTo (instr.successors i) j)
        = .ok merged := by
    intro j hj hlt
    -- what has arrived so far merges because all that ever arrives does
    have hpath := Layout.path_of_allows (hpass.paths j hj)
    obtain ⟨_, _, _, hnext⟩ := htable.passes j (hcount ▸ Layout.lt_count_of_path hpath)
    have hstart := hnext.start_eq
    obtain ⟨more, hmore⟩ :
        ∃ more, scope.arrivals table j j = scope.arrivals table (i + 1) j ++ more :=
      exists_arrivals_append hlt
    rw [startOf_of_none (Layout.exceptionAt?_eq_none hnested scope.cat hlt hpath), hmore] at hstart
    rw [← hpass.sends_eq, ← arrivals_succ]
    exact Stack.exists_mergeAll_of_append hstart
  obtain ⟨flow', hcarry⟩ := hholds.exists_carryAll hahead fun j hj hle => by
    rw [hagree' j (Nat.lt_succ_of_le hle)]
    exact hpass.behind j hj hle
  have hentry := h.entryStack_eq hnested hagree
    (fun k hk => htable.passes k (Nat.lt_trans hk hi)) hpass
  have hvisit : scope.Visit layout i flow instr entry out flow' :=
    { hpass with entryStack_eq := hentry, height := hpass.exitHeight, carryAll_eq := hcarry }
  refine ⟨flow', ⟨instr, entry, out, hvisit⟩, ?_⟩
  rw [hvisit.entries_eq]
  exact hagree'

end Scope

variable {cat : Catalog} {body : Body} {settings : Settings} {typing : Typing}

lemma tabulates_of_verify (h : verify cat body settings = .ok typing) :
    body.code ≠ [] ∧ ∃ layout : Layout,
      Layout.ofRegions body.regions body.code.length = .ok layout ∧
      layout.checkEnds body.code = .ok () ∧
      Scope.Tabulates ⟨cat, body, settings⟩ layout typing.entries := by
  obtain ⟨hcode, layout, hregions, hends, hrun⟩ := exists_run_of_verify h
  have hcount := (Layout.nested_of_ofRegions hregions).2
  refine ⟨hcode, layout, hregions, hends, ?_⟩
  obtain ⟨last, hlast, htracks, hpasses⟩ := Scope.run_induction
    (motive := fun i flow => Scope.Tracks ⟨cat, body, settings⟩ i flow ∧
      ∀ k < i, Scope.Passes ⟨cat, body, settings⟩ layout flow.entries k)
    (by
      rintro i flow flow' ⟨htracks, hpasses⟩ hv
      have hnew := htracks.passes hcount hv
      refine ⟨htracks.visits hv, fun k hk => ?_⟩
      rcases Nat.lt_succ_iff_lt_or_eq.1 hk with hk | rfl
      -- earlier instructions look at the table up to themselves, and that has not changed
      · refine (hpasses k hk).congr fun m hm => ?_
        obtain ⟨instr, entry, out, hv⟩ := hv
        rw [hv.entries_eq]
        exact (htracks.getElem?_fix entry).1 m (Nat.lt_of_le_of_lt hm hk)
      · exact hnew)
    rfl ⟨Scope.tracks_start, fun k hk => absurd hk (Nat.not_lt_zero k)⟩ hrun
  rw [Nat.zero_add] at htracks hpasses
  rw [← hlast]
  exact ⟨htracks.size, hpasses⟩

/-- A table in which every instruction passes is what the pass computes. -/
lemma verify_of_tabulates {layout : Layout} (hcode : body.code ≠ [])
    (hregions : Layout.ofRegions body.regions body.code.length = .ok layout)
    (hends : layout.checkEnds body.code = .ok ())
    (htable : Scope.Tabulates ⟨cat, body, settings⟩ layout typing.entries) :
    verify cat body settings = .ok typing := by
  obtain ⟨hnested, hcount⟩ := Layout.nested_of_ofRegions hregions
  obtain ⟨last, hrun, htracks, hagree⟩ := Scope.run_progress
    (motive := fun i flow => Scope.Tracks ⟨cat, body, settings⟩ i flow ∧
      ∀ k < i, flow.entries[k]? = typing.entries[k]?)
    hcount
    (by
      rintro i flow hi ⟨htracks, hagree⟩
      obtain ⟨flow', hv, hagree'⟩ := htracks.exists_visits hnested hcount htable hi hagree
      exact ⟨flow', hv, htracks.visits hv, hagree'⟩)
    rfl ⟨Scope.tracks_start, fun k hk => absurd hk (Nat.not_lt_zero k)⟩
  rw [Nat.zero_add] at htracks hagree
  have hentries : last.entries = typing.entries := by
    have hsize : last.entries.size = typing.entries.size := htracks.size.trans htable.size.symm
    refine Array.ext hsize fun k hk hk' => ?_
    have hlt : k < body.code.length := htracks.size ▸ hk
    have hsome := hagree k hlt
    rw [Array.getElem?_eq_getElem hk, Array.getElem?_eq_getElem hk'] at hsome
    exact Option.some.inj hsome
  rw [verify_of_run hcode hregions hends hrun, hentries]

/-- **The pass is its description by instruction.** A body is accepted with some stacks if and only
if it has instructions, its table of regions has a layout, its blocks end as they should, and the
stacks are the table in which every instruction starts with what arrives and passes. -/
theorem verify_eq_ok_iff_tabulates : verify cat body settings = .ok typing ↔
    body.code ≠ [] ∧ ∃ layout : Layout,
      Layout.ofRegions body.regions body.code.length = .ok layout ∧
      layout.checkEnds body.code = .ok () ∧
      Scope.Tabulates ⟨cat, body, settings⟩ layout typing.entries := by
  refine ⟨tabulates_of_verify, ?_⟩
  rintro ⟨hcode, layout, hregions, hends, htable⟩
  exact verify_of_tabulates hcode hregions hends htable

end StackTyping
