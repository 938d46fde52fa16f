import StackTyping.Code.Body
import StackTyping.Layout.Basic

/-!
Where control may go within a layout.

Control stays in the innermost block it is in, except that a try interval may be entered at its
first instruction and that `leave` may exit one try interval or catch handler. Handlers and
filters are entered by exceptions alone.
-/

namespace StackTyping

namespace Block

/-- One block lies around another. A try interval of the same length does not: it lies inside
any block of that length. -/
def surrounds (outer b : Block) : Bool :=
  outer != b && outer.span.encloses b.span
    && !(outer.isTry && outer.span.length == b.span.length)

/-- The innermost of some blocks that share a position; of several, the first. -/
def innermost? : List Block → Option Block
  | [] => none
  | b :: rest =>
    match innermost? rest with
    | some c => if c.isInside b then some c else some b
    | none => some b

theorem innermost?_mem {blocks : List Block} {b : Block} (h : innermost? blocks = some b) :
    b ∈ blocks := by
  induction blocks generalizing b with
  | nil => cases h
  | cons c rest ih =>
    simp only [innermost?] at h
    split at h
    · rename_i d hd
      split at h
      · cases h; exact List.mem_cons_of_mem _ (ih hd)
      · cases h; exact List.mem_cons_self
    · cases h; exact List.mem_cons_self

end Block

namespace Layout

variable (layout : Layout)

def wholeBody : Block := ⟨.wholeBody, 0, layout.count⟩

def innermost (i : Nat) : Block :=
  (Block.innermost? (layout.blocks.filter (·.span.contains i))).getD layout.wholeBody

/-- The innermost block around a block. -/
def enclosing (b : Block) : Block :=
  (Block.innermost? (layout.blocks.filter (·.surrounds b))).getD layout.wholeBody

/-- Some region's try interval starts at the position. -/
def startsTry (i : Nat) : Bool := layout.regions.any (·.tryStart == i)

/-- The exception that a handler or filter at the position is entered with. -/
def exceptionAt? (cat : Catalog) (i : Nat) : Option Slot :=
  layout.regions.findSome? fun r =>
    if r.handlerStart == i then some (r.exception cat)
    else if r.filterStart? == some i then some (.declared .object)
    else none

def longest : Nat := (layout.blocks.map (·.span.length)).foldr max 0

variable {layout}

theorem length_le_longest {b : Block} (h : b ∈ layout.blocks) :
    b.span.length ≤ layout.longest := by
  unfold longest
  generalize layout.blocks = blocks at h
  induction blocks with
  | nil => cases h
  | cons c rest ih =>
    simp only [List.map_cons, List.foldr_cons]
    rcases List.mem_cons.1 h with rfl | h
    · exact Nat.le_max_left _ _
    · exact Nat.le_trans (ih h) (Nat.le_max_right _ _)

/-- A try interval directly around a block is longer, and a block of the layout. -/
theorem enclosing_isTry {b : Block} (h : (layout.enclosing b).isTry) :
    layout.enclosing b ∈ layout.blocks ∧ b.span.length < (layout.enclosing b).span.length := by
  unfold enclosing at h ⊢
  cases hi : Block.innermost? (layout.blocks.filter (·.surrounds b)) with
  | none =>
    rw [hi] at h
    simp [wholeBody, Block.isTry] at h
  | some c =>
    rw [hi] at h
    have hc := List.mem_filter.1 (Block.innermost?_mem hi)
    simp only [Option.getD_some] at h ⊢
    refine ⟨hc.1, ?_⟩
    have ha := hc.2
    simp only [Block.surrounds, h, Span.encloses, Span.length, Bool.true_and, Bool.and_eq_true,
      Bool.not_eq_true', beq_eq_false_iff_ne, decide_eq_true_eq] at ha
    simp only [Span.length]
    omega

variable (layout)

/-- Going outwards from block `b` around the target, through try intervals that start there, one
comes to block `goal`. -/
def climbs (target : Nat) (goal b : Block) : Bool :=
  b == goal || b.isTry && b.span.start == target &&
    if _h : (layout.enclosing b).isTry then climbs target goal (layout.enclosing b)
    else layout.enclosing b == goal
termination_by layout.longest - b.span.length
decreasing_by
  have hp := enclosing_isTry _h
  have := length_le_longest hp.1
  omega

/-- The target lies directly in the block, or starts try intervals that do. -/
def entersFrom (target : Nat) (b : Block) : Bool :=
  layout.climbs target b (layout.innermost target)

/-- A branch, or running on to the next instruction, may lead from `source` to `target`. -/
def canBranch (source target : Nat) : Bool :=
  target < layout.count && layout.entersFrom target (layout.innermost source)

/-- A `leave` may lead from `source` to `target`. -/
def canLeave (source target : Nat) : Bool :=
  let b := layout.innermost source
  target < layout.count && (b.isTry || b.kind == .catchBlock)
    && (layout.entersFrom target b || layout.entersFrom target (layout.enclosing b))

def checkBranch (source target : Nat) : Except Fault Unit :=
  Fault.check (layout.canBranch source target) (.branchTarget target)

def checkLeave (source target : Nat) : Except Fault Unit :=
  Fault.check (layout.canLeave source target) (.leaveTarget target)

end Layout

namespace BlockKind

/-- A block of this kind may end with the instruction. -/
def endsWith : BlockKind → Instr → Bool
  | tryBlock, .leave _ | tryBlock, .throw => true
  | finallyBlock, .endfinally => true
  | filterBlock, .endfilter => true
  | catchBlock, .leave _ | catchBlock, .throw | catchBlock, .rethrow => true
  | _, _ => false

end BlockKind

namespace Layout

variable (layout : Layout)

/-- The block ends with an instruction that exits it. Where a nested block shares the last
instruction, the rule of that block applies instead, except to filters. -/
def checkEnd (code : List Instr) (b : Block) : Except Fault Unit :=
  let last := b.span.stop - 1
  if b.kind != .filterBlock && layout.innermost last != b then .ok ()
  else
    match code[last]? with
    | some instr => Fault.check (b.kind.endsWith instr) (.blockExit b instr.mnemonic)
    | none => .error (.outOfRange last)

def checkEnds (code : List Instr) : Except Fault Unit :=
  layout.blocks.forM (layout.checkEnd code)

/-- The instruction may stand in the block it is in. -/
def checkPlace (settings : Settings) (i : Nat) (instr : Instr) : Except Fault Unit :=
  let kind := (layout.innermost i).kind
  let misplaced := Fault.misplaced instr.mnemonic
  match instr with
  | .endfinally => Fault.check (kind == .finallyBlock) misplaced
  | .endfilter => Fault.check (kind == .filterBlock) misplaced
  | .rethrow => Fault.check (kind == .catchBlock) misplaced
  | .ret => Fault.check (kind == .wholeBody || settings.returnFromBlocks) misplaced
  | .leave target => layout.checkLeave i target
  | _ => .ok ()

end Layout

end StackTyping
