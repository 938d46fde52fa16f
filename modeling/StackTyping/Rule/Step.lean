import StackTyping.Rule.Delegate

/-!
What each instruction does to the operand stack. Where control goes next, and in which block the
instruction stands, is not considered here.
-/

namespace StackTyping

namespace Constant

def slot : Constant → Slot
  | i4 => .ofPrimitive .int32
  | i8 => .ofPrimitive .int64
  | r4 | r8 => .ofPrimitive .double
  | str => .declared .string

end Constant

namespace Rule

variable (scope : Scope)

/-- A condition for a branch: an integer or a reference. -/
def popCondition : Rule Unit := do
  let value ← pop
  let integer := (value.category? scope.cat).any (· != .float)
  require (integer || value.isReference scope.cat) (.unexpected .integerOrReference value)

/-- Shift an integer by an amount of at most native size. -/
def shift (op : ShiftOp) : Rule Unit := do
  let amount ← pop
  let value ← pop
  match value.category? scope.cat with
  | some c =>
    require (c != .float && (amount.category? scope.cat).any [.int32, .nativeInt].contains)
      (.operands (.shift op) value amount)
    push (.ofCategory c)
  | none => throw (.operands (.shift op) value amount)

/-- Negate a number, or complement an integer. -/
def unary (op : UnaryOp) : Rule Unit := do
  let value ← pop
  match value.category? scope.cat with
  | some c =>
    require (op == .neg || c != .float) (.unexpected .number value)
    push (.ofCategory c)
  | none => throw (.unexpected .number value)

def box (t : Ty) : Rule Unit := do
  require (scope.cat.isBoxable t) (.unexpected .value (.declared t))
  let value ← pop
  require (value.isInline scope.cat && (Slot.declared t).accepts scope.cat value)
    (.unexpected (.slot (.declared t)) value)
  push (.boxedOf scope.cat t)

/-- The effect of the instruction at position `i`. -/
def step (i : Nat) : Instr → Rule Unit
  | .nop => pure ()
  | .ldvar v => do push (← readVar scope v)
  | .ldvara v => do push (← addressOf (← readVar scope v))
  | .stvar v => do popAccepted scope (← readVar scope v)
  | .ldnull => push .null
  | .ldc c => push c.slot
  | .dup => do
    let top ← pop
    push top
    push top
  | .pop => discard pop
  | .call m flags => do
    invoke scope m .direct
    requireTail scope i flags
  | .callvirt m flags => do
    require (!m.isStatic) (.member (.callvirtStatic m))
    invoke scope m .virtual
    requireTail scope i flags
  | .newobj m => construct scope i m
  | .ldftn _ => push (.ofPrimitive .intptr)
  | .ldvirtftn m => do
    require (!m.isStatic) (.member (.ldvirtftnStatic m))
    popAccepted scope (.boxedOf scope.cat (.entry m.declaring))
    push (.ofPrimitive .intptr)
  | .ret => do
    let sig := scope.body.signature
    if sig.hasResult scope.cat then popAccepted scope sig.ret
    requireEmpty
  | .br _ => pure ()
  | .leave _ | .endfinally => clear
  | .brtrue _ | .brfalse _ => popCondition scope
  | .brcmp _ _ _ => do
    let right ← pop
    let left ← pop
    comparable scope .arithmetic left right
  | .switch _ => popCategory scope [.int32]
  | .throw => do
    let value ← pop
    require ((Slot.declared .object).accepts scope.cat value) (.unexpected .reference value)
  | .rethrow => pure ()
  | .endfilter => do
    popCategory scope [.int32]
    requireEmpty
  | .binary op flags => do
    let right ← pop
    let left ← pop
    push (.ofCategory (← combined scope .arithmetic (op.allowsFloat flags) left right))
  | .shift op => shift scope op
  | .unary op => unary scope op
  | .compare op _ => do
    let right ← pop
    let left ← pop
    comparable scope (.comparison op) left right
    push (.ofPrimitive .int32)
  | .conv target _ => do
    let value ← pop
    require (value.category? scope.cat).isSome (.unexpected .number value)
    push (.ofCategory (.ofPrimitive target))
  | .ckfinite => do
    popCategory scope [.float]
    push (.ofPrimitive .double)
  | .ldfld f => do
    requireInstance f
    popOwner scope f true
    push (.declared f.type)
  | .ldflda f => do
    requireInstance f
    popOwner scope f false
    push (.declared (.pointer f.type))
  | .stfld f => do
    requireInstance f
    popStored scope (.declared f.type)
    popOwner scope f false
  | .ldsfld f => do
    requireStatic f
    push (.declared f.type)
  | .ldsflda f => do
    requireStatic f
    push (.declared (.pointer f.type))
  | .stsfld f => do
    requireStatic f
    popStored scope (.declared f.type)
  | .newarr t => do
    popIndex scope
    push (.declared (.array t))
  | .ldlen => do
    discard (popArray scope)
    push (.ofPrimitive .intptr)
  | .ldelem t => do
    popIndex scope
    -- `null` has no elements, so the instruction tells their type
    match ← popArray scope with
    | some actual => push (← loaded scope actual t)
    | none => push (.declared t)
  | .ldelema t => do
    popIndex scope
    if let some actual ← popArray scope then sameLocation scope actual t
    push (.declared (.pointer t))
  | .stelem t => do
    popStored scope (.declared t)
    popIndex scope
    if let some actual ← popArray scope then storable scope actual t
  | .ldind t => do
    let actual ← popPointer scope
    push (← loaded scope actual t)
  | .stind t => do
    popStored scope (.declared t)
    let actual ← popPointer scope
    storable scope actual t
  | .ldobj t => do
    let actual ← popPointer scope
    sameLocation scope actual t
    push (.declared t)
  | .stobj t => do
    popStored scope (.declared t)
    let actual ← popPointer scope
    sameLocation scope actual t
  | .initobj t => do
    let actual ← popPointer scope
    sameLocation scope actual t
  | .sizeof _ => push (.ofPrimitive .int32)
  | .castclass t | .isinst t => do
    popReference scope
    push (.boxedOf scope.cat t)
  | .box t => box scope t
  | .unbox t => do
    require (scope.cat.isBoxable t) (.unexpected .value (.declared t))
    popReference scope
    push (.declared (.pointer t))
  | .unboxAny t => do
    popReference scope
    push (.declared t)

def stepAt (i : Nat) : Rule Unit :=
  match scope.body.code[i]? with
  | some instr => step scope i instr
  | none => throw (.badIndex i)

end Rule

end StackTyping
