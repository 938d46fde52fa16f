import Mathlib.Algebra.Group.Nat.Defs
import StackTyping.Proofs.Layout.Nesting

/-!
Laying out a body on a machine with words of 64 bits.

Checks add and subtract positions, and look up instructions by position. On a machine a sum may
fail to fit a word, a difference may be negative and a position may lie past the end of a list; then
the machine stops and there is no answer at all. The checks of a layout are given here once
more with these operations. The machine never stops in them, because every region is compared with
the size of the body before its blocks are formed, and a block that is formed is not empty and ends
within the body.
-/

namespace StackTyping

/-- A check that runs on a machine. The machine stops, or the check fails or succeeds. -/
abbrev Machine (ε α : Type) := ExceptT ε Option α

namespace Machine

variable {ε α β : Type}

def halt : Machine ε α := ExceptT.mk none

/-- The sum of two words, if it is a word. -/
def checkedAdd (a b : Nat) : Option Nat := if a + b < 2 ^ 64 then some (a + b) else none

def add (a b : Nat) : Machine ε Nat :=
  match checkedAdd a b with
  | some c => pure c
  | none => halt

def sub (a b : Nat) : Machine ε Nat := if b ≤ a then pure (a - b) else halt

def get (l : List α) (i : Nat) : Machine ε α :=
  match l[i]? with
  | some a => pure a
  | none => halt

def dropFrom (l : List α) (i : Nat) : Machine ε (List α) :=
  if i ≤ l.length then pure (l.drop i) else halt

def ofExcept (x : Except ε α) : Machine ε α := ExceptT.mk (some x)

lemma add_eq {a b : Nat} (h : a + b < 2 ^ 64) : (add a b : Machine ε Nat) = pure (a + b) := by
  rw [add, checkedAdd, if_pos h]

lemma sub_eq {a b : Nat} (h : b ≤ a) : (sub a b : Machine ε Nat) = pure (a - b) := if_pos h

lemma get_eq {l : List α} {i : Nat} {a : α} (h : l[i]? = some a) :
    (get l i : Machine ε α) = pure a := by
  rw [get, h]

lemma dropFrom_eq {l : List α} {i : Nat} (h : i ≤ l.length) :
    (dropFrom l i : Machine ε (List α)) = pure (l.drop i) := if_pos h

lemma ofExcept_ok (a : α) : (ofExcept (.ok a) : Machine ε α) = pure a := rfl

lemma ofExcept_eq_pure_iff {x : Except ε α} {a : α} : ofExcept x = pure a ↔ x = .ok a := by
  constructor
  · intro h
    exact Option.some.inj h
  · rintro rfl
    rfl

lemma ofExcept_bind (x : Except ε α) (f : α → Except ε β) :
    ofExcept (x >>= f) = ofExcept x >>= fun a => ofExcept (f a) := by
  cases x <;> rfl

lemma forM_eq_ofExcept {l : List α} {f : α → Machine ε PUnit} {g : α → Except ε PUnit}
    (h : ∀ a ∈ l, f a = ofExcept (g a)) : l.forM f = ofExcept (l.forM g) := by
  induction l with
  | nil => rfl
  | cons a rest ih =>
    obtain ⟨ha, hrest⟩ := List.forall_mem_cons.1 h
    calc (a :: rest).forM f = f a >>= fun _ => rest.forM f := rfl
      _ = ofExcept (g a) >>= fun _ => ofExcept (rest.forM g) := by rw [ha, ih hrest]
      _ = ofExcept (g a >>= fun _ => rest.forM g) := (ofExcept_bind _ _).symm

end Machine

/-! ### Blocks on words -/

namespace Words

variable {ε : Type} (layout : Layout)

/-- Whether an interval ends within the body; if its end is no word it does not. -/
def fits (count start length : Nat) : Bool := (Machine.checkedAdd start length).any (· ≤ count)

def problem? (count : Nat) (r : Region) : Option RegionProblem :=
  if r.tryLength = 0 ∨ r.handlerLength = 0 then some (.emptyInterval r)
  else if fits count r.tryStart r.tryLength && fits count r.handlerStart r.handlerLength then
    match r.kind, r.filterStart? with
    | .filteredCatch, some start =>
      if start < r.handlerStart then none else some (.filterAfterHandler r)
    | .filteredCatch, none => some (.filterAfterHandler r)
    | _, some _ => some (.strayFilter r)
    | _, none => none
  else some (.outOfBounds r)

def tryBlock (r : Region) : Machine ε Block := do
  let stop ← Machine.add r.tryStart r.tryLength
  return ⟨.tryBlock, r.tryStart, stop⟩

def handlerBlock (r : Region) : Machine ε Block := do
  let stop ← Machine.add r.handlerStart r.handlerLength
  return ⟨r.handlerBlock.kind, r.handlerStart, stop⟩

def addRegion (count : Nat) (blocks : List Block) (r : Region) :
    Machine RegionProblem (List Block) :=
  match problem? count r with
  | some p => throw p
  | none => do
    let tryBlock ← tryBlock r
    let handlerBlock ← handlerBlock r
    let entryBlocks := handlerBlock :: r.filterBlock?.toList
    match entryBlocks.find? (·.span.overlaps tryBlock.span) with
    | some b => throw (.overlapsTry b tryBlock)
    | none => Machine.ofExcept (Layout.addEntries (Layout.addTry blocks tryBlock) entryBlocks)

def collect (count : Nat) (blocks : List Block) :
    List Region → Machine RegionProblem (List Block)
  | [] => pure blocks
  | r :: rest => do
    let blocks ← addRegion count blocks r
    collect count blocks rest

/-- The first two blocks that cross, where the blocks from the `i`-th on are still to be compared
with the ones after them. -/
def crossing? (blocks : List Block) (i : Nat) :
    List Block → Machine ε (Option (Block × Block))
  | [] => pure none
  | b :: rest => do
    let next ← Machine.add i 1
    let later ← Machine.dropFrom blocks next
    match later.find? (b.span.crosses ·.span) with
    | some c => pure (some (b, c))
    | none => crossing? blocks next rest

def ofRegions (regions : List Region) (count : Nat) : Machine RegionProblem Layout := do
  let blocks ← collect count [] regions
  match ← crossing? blocks 0 blocks with
  | some (a, b) => throw (.crossing a b)
  | none => pure ⟨regions, blocks, count⟩

def length (b : Block) : Machine ε Nat := Machine.sub b.span.stop b.span.start

/-- The innermost of some blocks with its length. Of two blocks the shorter one is inside, and of
two with the same length the try interval. -/
def innermost? : List Block → Machine ε (Option (Nat × Block))
  | [] => pure none
  | b :: rest => do
    let n ← length b
    match ← innermost? rest with
    | some (m, c) =>
      if m < n || m == n && c.isTry && !b.isTry then pure (some (m, c)) else pure (some (n, b))
    | none => pure (some (n, b))

def innermostOf (blocks : List Block) : Machine ε Block := do
  match ← innermost? blocks with
  | some (_, b) => pure b
  | none => pure layout.wholeBody

def innermost (i : Nat) : Machine ε Block :=
  innermostOf layout (layout.blocks.filter (·.span.contains i))

/-- Whether a block lies around another. The lengths are compared only where it does by its
place. -/
def surrounds (outer b : Block) : Machine ε Bool :=
  if outer != b && outer.span.encloses b.span then do
    let n ← length outer
    let m ← length b
    return !(outer.isTry && n == m)
  else pure false

def around (b : Block) : List Block → Machine ε (List Block)
  | [] => pure []
  | c :: rest => do
    let outside ← surrounds c b
    let others ← around b rest
    return if outside then c :: others else others

def enclosing (b : Block) : Machine ε Block := do
  innermostOf layout (← around b layout.blocks)

/-- Go outwards from a block for at most `n` rounds; the machine stops if there are more. -/
def climbs (target : Nat) (goal : Block) : Nat → Block → Machine ε Bool
  | 0, _ => Machine.halt
  | n + 1, b =>
    if b == goal then pure true
    else if b.isTry && b.span.start == target then do
      let outer ← enclosing layout b
      if outer.isTry then climbs target goal n outer else pure (outer == goal)
    else pure false

def entersFrom (target : Nat) (b : Block) : Machine ε Bool := do
  climbs layout target b (layout.longest + 1) (← innermost layout target)

def checkBranch (source target : Nat) : Machine Fault Unit :=
  if target < layout.count then do
    let ok ← entersFrom layout target (← innermost layout source)
    Machine.ofExcept (Fault.check ok (.branchTarget target))
  else throw (.branchTarget target)

def checkLeave (source target : Nat) : Machine Fault Unit :=
  if target < layout.count then do
    let b ← innermost layout source
    if b.isTry || b.kind == .catchBlock then
      let outer ← enclosing layout b
      let inside ← entersFrom layout target b
      let outside ← entersFrom layout target outer
      Machine.ofExcept (Fault.check (inside || outside) (.leaveTarget target))
    else throw (.leaveTarget target)
  else throw (.leaveTarget target)

/-- The last instruction of a block is looked up by its position, which has to exist. -/
def checkEnd (code : List Instr) (b : Block) : Machine Fault Unit := do
  let last ← Machine.sub b.span.stop 1
  if b.kind != .filterBlock && (← innermost layout last) != b then pure ()
  else
    let instr ← Machine.get code last
    Machine.ofExcept (Fault.check (b.kind.endsWith instr) (.blockExit b instr.mnemonic))

def checkEnds (code : List Instr) : Machine Fault Unit :=
  layout.blocks.forM (checkEnd layout code)

def checkPlace (settings : Settings) (i : Nat) (instr : Instr) : Machine Fault Unit := do
  let kind := (← innermost layout i).kind
  let check (ok : Bool) := Machine.ofExcept (Fault.check ok (.misplaced instr.mnemonic))
  match instr with
  | .endfinally => check (kind == .finallyBlock)
  | .endfilter => check (kind == .filterBlock)
  | .rethrow => check (kind == .catchBlock)
  | .ret => check (kind == .wholeBody || settings.returnFromBlocks)
  | .leave target => checkLeave layout i target
  | _ => pure ()

end Words

/-! ### Blocks that are formed -/

namespace Region

lemma length_entryBlocks_le (r : Region) : r.entryBlocks.length ≤ 2 := by
  unfold entryBlocks
  cases r.filterBlock? <;> simp

end Region

namespace Layout

variable {layout : Layout} {regions : List Region} {r : Region} {b : Block}
  {blocks out : List Block} {count i source target : Nat}

lemma length_addTry_le : (addTry blocks b).length ≤ blocks.length + 1 := by
  unfold addTry
  split <;> simp

lemma length_le_of_addRegion (h : addRegion count blocks r = .ok out) :
    out.length ≤ blocks.length + 3 := by
  obtain ⟨-, -, rfl⟩ := addRegion_eq_ok_iff.1 h
  have htry : (addTry blocks r.tryBlock).length ≤ blocks.length + 1 := length_addTry_le
  have hentries := r.length_entryBlocks_le
  rw [List.length_append]
  omega

lemma length_le_of_collect (h : collect count blocks regions = .ok out) :
    out.length ≤ blocks.length + 3 * regions.length :=
  collect_le (fun _ _ _ => length_le_of_addRegion) h

/-- No block is empty, and each ends within the body. -/
def Bounded (layout : Layout) : Prop :=
  ∀ b ∈ layout.blocks, b.span.start < b.span.stop ∧ b.span.stop ≤ layout.count

lemma bounded_of_ofRegions (h : ofRegions regions count = .ok layout) : layout.Bounded := by
  obtain ⟨blocks, hblocks, -, rfl⟩ := ofRegions_eq_ok_iff.1 h
  intro b hb
  exact bounds_of_mem_tableBlocks (mem_collect hblocks).1 ((mem_blocks_iff h).1 hb)

end Layout

/-! ### The machine agrees -/

namespace Words

open Machine

variable {ε : Type} {layout : Layout} {r : Region} {b : Block} {count i source target : Nat}

lemma fits_eq {start len : Nat} (hcount : count < 2 ^ 64) :
    fits count start len = decide (start + len ≤ count) := by
  unfold fits checkedAdd
  split
  · rfl
  · rw [Option.any_none]
    exact (decide_eq_false (by omega)).symm

lemma problem?_eq (hcount : count < 2 ^ 64) : problem? count r = r.problem? count := by
  unfold problem? Region.problem?
  refine if_congr Iff.rfl rfl (if_congr ?_ rfl rfl)
  rw [fits_eq hcount, fits_eq hcount, Bool.and_eq_true, decide_eq_true_eq, decide_eq_true_eq]

/-- The blocks of a region are formed only after it has been compared with the body. -/
lemma addRegion_eq (hcount : count < 2 ^ 64) (blocks : List Block) :
    addRegion count blocks r = ofExcept (Layout.addRegion count blocks r) := by
  unfold addRegion Layout.addRegion
  rw [problem?_eq hcount]
  cases hp : r.problem? count with
  | some p => rfl
  | none =>
    -- the ends of a proper region lie within the body, so both sums are words
    have hproper := Region.problem?_eq_none_iff.1 hp
    have htryStop := hproper.tryStop_le
    have hhandlerStop := hproper.handlerStop_le
    have htry : (tryBlock r : Machine RegionProblem Block) = pure r.tryBlock := by
      rw [tryBlock, add_eq (by omega), pure_bind]
      rfl
    have hhandler : (handlerBlock r : Machine RegionProblem Block) = pure r.handlerBlock := by
      rw [handlerBlock, add_eq (by omega), pure_bind]
      rfl
    dsimp only
    rw [htry, pure_bind, hhandler, pure_bind]
    change (match r.entryBlocks.find? (·.span.overlaps r.tryBlock.span) with
      | some b => throw (RegionProblem.overlapsTry b r.tryBlock)
      | none => _) = _
    cases r.entryBlocks.find? (·.span.overlaps r.tryBlock.span) with
    | some b => rfl
    | none => rfl

lemma collect_eq (hcount : count < 2 ^ 64) (blocks : List Block) (regions : List Region) :
    collect count blocks regions = ofExcept (Layout.collect count blocks regions) := by
  induction regions generalizing blocks with
  | nil => rfl
  | cons r rest ih =>
    rw [collect, Layout.collect, addRegion_eq hcount, ofExcept_bind]
    exact congrArg _ (funext fun blocks => ih blocks)

/-- A block that is compared with the ones after it is in the list, so these begin within it. -/
lemma crossing?_eq {blocks rest : List Block} (hblocks : blocks.length < 2 ^ 64)
    (hrest : blocks.drop i = rest) :
    (crossing? blocks i rest : Machine ε _) = pure (Layout.crossing? rest) := by
  induction rest generalizing i with
  | nil => rfl
  | cons b rest ih =>
    have hlt : i < blocks.length := by
      have hlen := congrArg List.length hrest
      rw [List.length_drop, List.length_cons] at hlen
      omega
    have hnext : blocks.drop (i + 1) = rest := by
      rw [← List.tail_drop, hrest, List.tail_cons]
    rw [crossing?, Layout.crossing?, add_eq (by omega), pure_bind, dropFrom_eq hlt, pure_bind,
      hnext]
    cases rest.find? (b.span.crosses ·.span) with
    | some c => rfl
    | none => exact ih hnext

lemma ofRegions_eq {regions : List Region} (hcount : count < 2 ^ 64)
    (hregions : 3 * regions.length < 2 ^ 64) :
    ofRegions regions count = ofExcept (Layout.ofRegions regions count) := by
  rw [ofRegions, Layout.ofRegions, collect_eq hcount, ofExcept_bind]
  cases hblocks : Layout.collect count [] regions with
  | error problem => rfl
  | ok blocks =>
    have hlen := Layout.length_le_of_collect hblocks
    rw [List.length_nil] at hlen
    rw [ofExcept_ok, pure_bind, pure_bind, crossing?_eq (by omega) List.drop_zero, pure_bind]
    cases Layout.crossing? blocks with
    | some pair => rfl
    | none => rfl

section Bounded

variable (h : layout.Bounded)
include h

lemma length_eq (hb : b ∈ layout.blocks) : (length b : Machine ε Nat) = pure b.span.length :=
  sub_eq (Nat.le_of_lt (h b hb).1)

/-- The machine's lengths are the lengths, so it chooses the same block. -/
lemma innermost?_eq {blocks : List Block} (hblocks : blocks ⊆ layout.blocks) :
    (innermost? blocks : Machine ε _) =
      pure ((Block.innermost? blocks).map fun b => (b.span.length, b)) := by
  induction blocks with
  | nil => rfl
  | cons b rest ih =>
    obtain ⟨hb, hrest⟩ := List.cons_subset.1 hblocks
    rw [innermost?, Block.innermost?, length_eq h hb, pure_bind, ih hrest, pure_bind]
    cases Block.innermost? rest with
    | none => rfl
    | some c =>
      dsimp only [Option.map_some]
      by_cases hinside : c.isInside b
      · rw [if_pos hinside]
        exact if_pos hinside
      · rw [if_neg hinside]
        exact if_neg hinside

lemma innermostOf_eq {blocks : List Block} (hblocks : blocks ⊆ layout.blocks) :
    (innermostOf layout blocks : Machine ε Block) =
      pure ((Block.innermost? blocks).getD layout.wholeBody) := by
  rw [innermostOf, innermost?_eq h hblocks, pure_bind]
  cases Block.innermost? blocks with
  | some b => rfl
  | none => rfl

lemma innermost_eq (i : Nat) :
    (innermost layout i : Machine ε Block) = pure (layout.innermost i) :=
  innermostOf_eq h (List.filter_subset_self _)

lemma surrounds_eq {outer : Block} (houter : outer ∈ layout.blocks) (hb : b ∈ layout.blocks) :
    (surrounds outer b : Machine ε Bool) = pure (outer.surrounds b) := by
  unfold surrounds Block.surrounds
  by_cases hplace : outer != b && outer.span.encloses b.span
  · rw [if_pos hplace, hplace, Bool.true_and, length_eq h houter, pure_bind, length_eq h hb,
      pure_bind]
  · rw [if_neg hplace, eq_false_of_ne_true hplace, Bool.false_and]

lemma around_eq (hb : b ∈ layout.blocks) {blocks : List Block} (hblocks : blocks ⊆ layout.blocks) :
    (around b blocks : Machine ε (List Block)) = pure (blocks.filter (·.surrounds b)) := by
  induction blocks with
  | nil => rfl
  | cons c rest ih =>
    obtain ⟨hc, hrest⟩ := List.cons_subset.1 hblocks
    rw [around, surrounds_eq h hc hb, pure_bind, ih hrest, pure_bind, List.filter_cons]

lemma enclosing_eq (hb : b ∈ layout.blocks) :
    (enclosing layout b : Machine ε Block) = pure (layout.enclosing b) := by
  rw [enclosing, around_eq h hb (List.Subset.refl _), pure_bind]
  exact innermostOf_eq h (List.filter_subset_self _)

/-- Only try intervals are climbed out of, and these are blocks of the layout. Each round leads to a
longer one, so there are enough rounds. -/
lemma climbs_eq (target : Nat) (goal : Block) {n : Nat} {b : Block}
    (hb : b.isTry → b ∈ layout.blocks) (hn : layout.longest - b.span.length < n) :
    (climbs layout target goal n b : Machine ε Bool) = pure (layout.climbs target goal b) := by
  induction n generalizing b with
  | zero => omega
  | succ n ih =>
    rw [climbs, Layout.climbs]
    by_cases hgoal : b == goal
    · rw [if_pos hgoal, hgoal, Bool.true_or]
    · rw [if_neg hgoal, eq_false_of_ne_true hgoal, Bool.false_or]
      by_cases hstart : b.isTry && b.span.start == target
      · have hmem := hb (Bool.and_eq_true_iff.1 hstart).1
        rw [if_pos hstart, hstart, Bool.true_and, enclosing_eq h hmem, pure_bind]
        by_cases houter : (layout.enclosing b).isTry
        · obtain ⟨hblock, hlonger⟩ := Layout.enclosing_isTry houter
          have hlongest := Layout.length_le_longest hblock
          rw [if_pos houter, dif_pos houter]
          exact ih (fun _ => hblock) (by omega)
        · rw [if_neg houter, dif_neg houter]
      · rw [if_neg hstart, eq_false_of_ne_true hstart, Bool.false_and]

lemma entersFrom_eq (target : Nat) (b : Block) :
    (entersFrom layout target b : Machine ε Bool) = pure (layout.entersFrom target b) := by
  rw [entersFrom, innermost_eq h, pure_bind,
    climbs_eq h target b Layout.innermost_mem_of_isTry (by omega)]
  rfl

lemma checkBranch_eq (source target : Nat) :
    checkBranch layout source target = ofExcept (layout.checkBranch source target) := by
  unfold checkBranch Layout.checkBranch Layout.canBranch
  by_cases hlt : target < layout.count
  · rw [if_pos hlt, decide_eq_true hlt, Bool.true_and, innermost_eq h, pure_bind,
      entersFrom_eq h, pure_bind]
  · rw [if_neg hlt, decide_eq_false hlt, Bool.false_and]
    rfl

lemma checkLeave_eq (source target : Nat) :
    checkLeave layout source target = ofExcept (layout.checkLeave source target) := by
  unfold checkLeave Layout.checkLeave Layout.canLeave
  dsimp only
  by_cases hlt : target < layout.count
  · rw [if_pos hlt, decide_eq_true hlt, Bool.true_and, innermost_eq h, pure_bind]
    by_cases hkind :
      (layout.innermost source).isTry || (layout.innermost source).kind == .catchBlock
    · have hmem : layout.innermost source ∈ layout.blocks := by
        refine Layout.innermost_mem fun hwhole => ?_
        rw [hwhole] at hkind
        cases hkind
      rw [if_pos hkind, hkind, Bool.true_and, enclosing_eq h hmem, pure_bind, entersFrom_eq h,
        pure_bind, entersFrom_eq h, pure_bind]
    · rw [if_neg hkind, eq_false_of_ne_true hkind, Bool.false_and]
      rfl
  · rw [if_neg hlt, decide_eq_false hlt, Bool.false_and, Bool.false_and]
    rfl

lemma checkPlace_eq (settings : Settings) (i : Nat) (instr : Instr) :
    checkPlace layout settings i instr = ofExcept (layout.checkPlace settings i instr) := by
  unfold checkPlace
  rw [innermost_eq h, pure_bind]
  cases instr with
  | leave target => exact checkLeave_eq h i target
  | _ => rfl

lemma checkEnd_eq {code : List Instr} (hcount : layout.count = code.length)
    (hb : b ∈ layout.blocks) : checkEnd layout code b = ofExcept (layout.checkEnd code b) := by
  obtain ⟨hstart, hstop⟩ := h b hb
  have hlast : b.span.stop - 1 < code.length := by omega
  unfold checkEnd Layout.checkEnd
  dsimp only
  rw [sub_eq (by omega), pure_bind, innermost_eq h, pure_bind, List.getElem?_eq_getElem hlast,
    get_eq (List.getElem?_eq_getElem hlast), pure_bind]
  split <;> rfl

lemma checkEnds_eq {code : List Instr} (hcount : layout.count = code.length) :
    checkEnds layout code = ofExcept (layout.checkEnds code) :=
  forM_eq_ofExcept fun _ hb => checkEnd_eq h hcount hb

end Bounded

end Words

end StackTyping
