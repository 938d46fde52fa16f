import StackTyping.Code.Signature

/-!
The instructions of a method body, with their operands resolved. Branch targets are positions in
the body; argument positions count the receiver. Constants appear by their type alone, since
their values play no part in typing.
-/

namespace StackTyping

structure Flags where
  /-- Checked for overflow. -/
  overflow : Bool
  /-- Unsigned, or unordered for floats. -/
  unsigned : Bool
  /-- A call in tail position. -/
  tail : Bool
deriving DecidableEq

inductive BinaryOp where
  | add
  | sub
  | mul
  | div
  | rem
  | and
  | or
  | xor
deriving DecidableEq

namespace BinaryOp

/-- The operator also works on floats. -/
def allowsFloat (flags : Flags) : BinaryOp → Bool
  | add | sub => !flags.overflow
  | mul | div | rem => !flags.overflow && !flags.unsigned
  | and | or | xor => false

end BinaryOp

inductive ShiftOp where
  | shl
  | shr
  | shrUn
deriving DecidableEq

namespace ShiftOp

def text : ShiftOp → String
  | shl => "Shl"
  | shr => "Shr"
  | shrUn => "ShrUn"

end ShiftOp

inductive UnaryOp where
  | neg
  | not
deriving DecidableEq

inductive CompareOp where
  | ceq
  | cgt
  | clt
deriving DecidableEq

namespace CompareOp

def text : CompareOp → String
  | ceq => "Ceq"
  | cgt => "Cgt"
  | clt => "Clt"

end CompareOp

inductive BranchCondition where
  | eq
  | ne
  | ge
  | gt
  | le
  | lt
deriving DecidableEq

inductive Constant where
  | i4
  | i8
  | r4
  | r8
  | str
deriving DecidableEq

/-- An argument or a local, by position. -/
inductive Var where
  | arg (index : Nat)
  | loc (index : Nat)
deriving DecidableEq

inductive Instr where
  | nop
  | ldvar (var : Var)
  | ldvara (var : Var)
  | stvar (var : Var)
  | ldnull
  | ldc (constant : Constant)
  | dup
  | pop
  | call (method : Method) (flags : Flags)
  | callvirt (method : Method) (flags : Flags)
  | newobj (method : Method)
  | ldftn (method : Method)
  | ldvirtftn (method : Method)
  | ret
  | br (target : Nat)
  | brtrue (target : Nat)
  | brfalse (target : Nat)
  | brcmp (condition : BranchCondition) (target : Nat) (flags : Flags)
  | switch (targets : List Nat)
  | leave (target : Nat)
  | throw
  | rethrow
  | endfinally
  | endfilter
  | binary (op : BinaryOp) (flags : Flags)
  | shift (op : ShiftOp)
  | unary (op : UnaryOp)
  | compare (op : CompareOp) (flags : Flags)
  | conv (target : Primitive) (flags : Flags)
  | ckfinite
  | ldfld (field : Field)
  | ldflda (field : Field)
  | stfld (field : Field)
  | ldsfld (field : Field)
  | ldsflda (field : Field)
  | stsfld (field : Field)
  | newarr (type : Ty)
  | ldlen
  | ldelem (type : Ty)
  | ldelema (type : Ty)
  | stelem (type : Ty)
  | ldind (type : Ty)
  | stind (type : Ty)
  | ldobj (type : Ty)
  | stobj (type : Ty)
  | initobj (type : Ty)
  | sizeof (type : Ty)
  | castclass (type : Ty)
  | isinst (type : Ty)
  | box (type : Ty)
  | unbox (type : Ty)
  | unboxAny (type : Ty)

namespace Instr

/-- The targets an instruction names, in order; running on to the next one is not among them. -/
def targets : Instr → List Nat
  | br t | brtrue t | brfalse t | brcmp _ t _ | leave t => [t]
  | switch ts => ts
  | _ => []

/-- Control may run on to the next instruction. -/
def fallsThrough : Instr → Bool
  | br _ | leave _ | ret | throw | rethrow | endfinally | endfilter => false
  | _ => true

/-- The name an instruction is reported under. Families of operators share one. -/
def mnemonic : Instr → String
  | nop => "nop"
  | ldvar (.arg _) => "ldarg"
  | ldvar (.loc _) => "ldloc"
  | ldvara (.arg _) => "ldarga"
  | ldvara (.loc _) => "ldloca"
  | stvar (.arg _) => "starg"
  | stvar (.loc _) => "stloc"
  | ldnull => "ldnull"
  | ldc .i4 => "ldc.i4"
  | ldc .i8 => "ldc.i8"
  | ldc .r4 => "ldc.r4"
  | ldc .r8 => "ldc.r8"
  | ldc .str => "ldstr"
  | dup => "dup"
  | pop => "pop"
  | call _ _ => "call"
  | callvirt _ _ => "callvirt"
  | newobj _ => "newobj"
  | ldftn _ => "ldftn"
  | ldvirtftn _ => "ldvirtftn"
  | ret => "ret"
  | br _ => "br"
  | brtrue _ => "brtrue"
  | brfalse _ => "brfalse"
  | brcmp _ _ _ => "b<cond>"
  | switch _ => "switch"
  | leave _ => "leave"
  | throw => "throw"
  | rethrow => "rethrow"
  | endfinally => "endfinally"
  | endfilter => "endfilter"
  | binary _ _ => "<binop>"
  | shift _ => "<shift>"
  | unary _ => "<unop>"
  | compare _ _ => "c<cond>"
  | conv _ _ => "conv"
  | ckfinite => "ckfinite"
  | ldfld _ => "ldfld"
  | ldflda _ => "ldflda"
  | stfld _ => "stfld"
  | ldsfld _ => "ldsfld"
  | ldsflda _ => "ldsflda"
  | stsfld _ => "stsfld"
  | newarr _ => "newarr"
  | ldlen => "ldlen"
  | ldelem _ => "ldelem"
  | ldelema _ => "ldelema"
  | stelem _ => "stelem"
  | ldind _ => "ldind"
  | stind _ => "stind"
  | ldobj _ => "ldobj"
  | stobj _ => "stobj"
  | initobj _ => "initobj"
  | sizeof _ => "sizeof"
  | castclass _ => "castclass"
  | isinst _ => "isinst"
  | box _ => "box"
  | unbox _ => "unbox"
  | unboxAny _ => "unbox.any"

end Instr

end StackTyping
