import StackTyping.Fault

/-!
The layout of a body: the blocks that its exception table divides it into.

A table is accepted when every interval lies within the body and any two of its blocks are
disjoint or nested. Regions may share a try interval, but no two of them share a handler or a
filter.
-/

namespace StackTyping

namespace Region

/-- What is wrong with a region by itself, in a body of `count` instructions. -/
def problem? (count : Nat) (r : Region) : Option RegionProblem :=
  if r.tryLength = 0 ∨ r.handlerLength = 0 then some (.emptyInterval r)
  else if r.tryStart + r.tryLength ≤ count ∧ r.handlerStart + r.handlerLength ≤ count then
    match r.kind, r.filterStart? with
    | .filteredCatch, some start =>
      if start < r.handlerStart then none else some (.filterAfterHandler r)
    | .filteredCatch, none => some (.filterAfterHandler r)
    | _, some _ => some (.strayFilter r)
    | _, none => none
  else some (.outOfBounds r)

end Region

/-- The blocks of a body of `count` instructions, in the order in which the table names them. -/
structure Layout where
  regions : List Region
  blocks : List Block
  count : Nat

namespace Layout

/-- Add a try interval, which regions may share. -/
def addTry (blocks : List Block) (b : Block) : List Block :=
  if blocks.contains b then blocks else blocks ++ [b]

/-- Add handlers and filters, which belong to one region each. -/
def addEntries (blocks : List Block) : List Block → Except RegionProblem (List Block)
  | [] => .ok blocks
  | b :: rest =>
    if blocks.contains b then .error (.reused b) else addEntries (blocks ++ [b]) rest

def addRegion (count : Nat) (blocks : List Block) (r : Region) :
    Except RegionProblem (List Block) :=
  match r.problem? count with
  | some p => .error p
  | none =>
    match r.entryBlocks.find? (·.span.overlaps r.tryBlock.span) with
    | some b => .error (.overlapsTry b r.tryBlock)
    | none => addEntries (addTry blocks r.tryBlock) r.entryBlocks

def collect (count : Nat) (blocks : List Block) : List Region → Except RegionProblem (List Block)
  | [] => .ok blocks
  | r :: rest => do
    let blocks ← addRegion count blocks r
    collect count blocks rest

/-- The first two blocks that overlap without nesting. -/
def crossing? : List Block → Option (Block × Block)
  | [] => none
  | b :: rest =>
    match rest.find? (b.span.crosses ·.span) with
    | some c => some (b, c)
    | none => crossing? rest

/-- The layout of a table, if it is well formed. -/
def ofRegions (regions : List Region) (count : Nat) : Except RegionProblem Layout := do
  let blocks ← collect count [] regions
  match crossing? blocks with
  | some (a, b) => .error (.crossing a b)
  | none => .ok ⟨regions, blocks, count⟩

end Layout

end StackTyping
