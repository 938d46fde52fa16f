import StackTyping.Slot.Basic

/-!
Exception regions, and the blocks of instructions they divide a body into.

A region protects a try interval with a handler and possibly a filter, which runs up to the
handler. Each of the three is a block: an interval of positions with its purpose.
-/

namespace StackTyping

/-- A half-open interval of positions. -/
structure Span where
  start : Nat
  stop : Nat
deriving DecidableEq

namespace Span

def contains (s : Span) (i : Nat) : Bool := s.start ≤ i && i < s.stop

def encloses (s t : Span) : Bool := s.start ≤ t.start && t.stop ≤ s.stop

def overlaps (s t : Span) : Bool := s.start < t.stop && t.start < s.stop

def length (s : Span) : Nat := s.stop - s.start

/-- The two overlap and neither contains the other. -/
def crosses (s t : Span) : Bool := s.overlaps t && !(s.encloses t || t.encloses s)

end Span

inductive BlockKind where
  /-- The whole body. -/
  | wholeBody
  /-- A protected interval. -/
  | tryBlock
  /-- The handler of a typed or filtered catch. -/
  | catchBlock
  /-- The handler of a finally or fault region. -/
  | finallyBlock
  /-- The code that decides whether a filtered catch applies. -/
  | filterBlock
deriving DecidableEq

namespace BlockKind

def text : BlockKind → String
  | wholeBody => "Global"
  | tryBlock => "Try"
  | catchBlock => "Catch"
  | finallyBlock => "Finally"
  | filterBlock => "Filter"

end BlockKind

/-- An interval of positions with its purpose. -/
structure Block where
  kind : BlockKind
  span : Span
deriving DecidableEq

namespace Block

def isTry (b : Block) : Bool := b.kind == .tryBlock

/-- The block is the inner one of two that share a position: it is shorter, or it is a try
interval of the same length as a block of another kind. -/
def isInside (a b : Block) : Bool :=
  a.span.length < b.span.length || a.span.length == b.span.length && a.isTry && !b.isTry

def text (b : Block) : String :=
  "Block \x7b kind: " ++ b.kind.text ++ ", start: " ++ toString b.span.start ++ ", end: "
    ++ toString b.span.stop ++ " \x7d"

end Block

/-- When a region's handler runs. -/
inductive RegionKind where
  /-- Only when an exception leaves the try interval. -/
  | fault
  /-- Whenever control leaves the try interval. -/
  | finally
  /-- For exceptions of a class. -/
  | typedCatch (type : Ty)
  /-- For exceptions that the filter accepts. -/
  | filteredCatch
deriving DecidableEq

/-- A row of the exception table. -/
structure Region where
  kind : RegionKind
  tryStart : Nat
  tryLength : Nat
  handlerStart : Nat
  handlerLength : Nat
  filterStart? : Option Nat
deriving DecidableEq

namespace Region

def tryBlock (r : Region) : Block := ⟨.tryBlock, r.tryStart, r.tryStart + r.tryLength⟩

def handlerBlock (r : Region) : Block :=
  let kind := match r.kind with
    | .fault | .finally => .finallyBlock
    | .typedCatch _ | .filteredCatch => .catchBlock
  ⟨kind, r.handlerStart, r.handlerStart + r.handlerLength⟩

def filterBlock? (r : Region) : Option Block :=
  r.filterStart?.map fun start => ⟨.filterBlock, start, r.handlerStart⟩

/-- The blocks that an exception enters: the handler and the filter. -/
def entryBlocks (r : Region) : List Block := r.handlerBlock :: r.filterBlock?.toList

def entryPoints (r : Region) : List Nat := r.handlerStart :: r.filterStart?.toList

/-- The type of the exception that the handler is entered with. -/
def exception (cat : Catalog) (r : Region) : Slot :=
  match r.kind with
  | .typedCatch t => .boxedOf cat t
  | _ => .declared .object

def text (cat : Catalog) (r : Region) : String :=
  let kind := match r.kind with
    | .fault => "Fault"
    | .finally => "Finally"
    | .typedCatch t => "TypedCatch(" ++ cat.nameOf t ++ ")"
    | .filteredCatch => "FilteredCatch"
  let filter := match r.filterStart? with
    | some start => "Some(" ++ toString start ++ ")"
    | none => "None"
  "ExceptionRegion \x7b kind: " ++ kind ++ ", try_start: " ++ toString r.tryStart
    ++ ", try_length: " ++ toString r.tryLength ++ ", handler_start: " ++ toString r.handlerStart
    ++ ", handler_length: " ++ toString r.handlerLength ++ ", filter_start: " ++ filter ++ " \x7d"

end Region

end StackTyping
