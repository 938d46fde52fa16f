import StackTyping.Code.Instr
import StackTyping.Code.Region

/-!
Why a body is refused. A fault keeps the slots, blocks and members it is about; its wording, and
the line it adds to the log, are read off it together with the catalog.
-/

namespace StackTyping

/-- What an operand should have been. -/
inductive Expectation where
  | slot (s : Slot)
  | categories (cs : List Category)
  | location
  | integerOrReference
  | reference
  | number
  | value
  | array
  | pointer
deriving DecidableEq

namespace Expectation

def text (cat : Catalog) : Expectation → String
  | slot s => s.text cat
  | categories cs => "[" ++ ", ".intercalate (cs.map Category.text) ++ "]"
  | location => "\"a location type\""
  | integerOrReference => "\"an integer or object reference\""
  | reference => "\"an object reference\""
  | number => "\"a numeric value\""
  | value => "\"a value type\""
  | array => "\"an array\""
  | pointer => "\"a managed pointer\""

end Expectation

/-- The operation whose two operands do not go together. -/
inductive Pairing where
  | arithmetic
  | comparison (op : CompareOp)
  | shift (op : ShiftOp)
deriving DecidableEq

/-- What is wrong with an exception table. -/
inductive RegionProblem where
  | emptyInterval (region : Region)
  | outOfBounds (region : Region)
  | filterAfterHandler (region : Region)
  | strayFilter (region : Region)
  | overlapsTry (block tryBlock : Block)
  | reused (block : Block)
  | crossing (first second : Block)
deriving DecidableEq

namespace RegionProblem

def text (cat : Catalog) : RegionProblem → String
  | emptyInterval r => "empty interval in " ++ r.text cat
  | outOfBounds r => "interval out of bounds in " ++ r.text cat
  | filterAfterHandler r => "filter must start before its handler in " ++ r.text cat
  | strayFilter r => "filter on a region that isn't a filtered catch in " ++ r.text cat
  | overlapsTry b t => "handler or filter " ++ b.text ++ " overlaps its own try " ++ t.text
  | reused b => b.text ++ " is used by more than one region"
  | crossing a b => a.text ++ " and " ++ b.text ++ " overlap without nesting"

end RegionProblem

/-- What is wrong with the construction of a delegate. -/
inductive DelegateProblem where
  | noFunction
  | jumpedInto
  | noInvoke (delegate : EntryId)
  | signature (target invoke : Method)
  | staticReceiver (target : Method) (receiver : Slot)
  | receiver (target : Method) (receiver : Slot)
deriving DecidableEq

namespace DelegateProblem

def text (cat : Catalog) : DelegateProblem → String
  | noFunction => "constructor must follow `ldftn` or `dup; ldvirtftn`"
  | jumpedInto => "delegate construction pattern is the target of a jump"
  | noInvoke d => cat.nameOf (.entry d) ++ " has no Invoke method"
  | signature m invoke => cat.methodText m ++ " does not match " ++ cat.methodText invoke
  | staticReceiver m r =>
    "static " ++ cat.methodText m ++ " bound to " ++ r.text cat ++ " instead of null"
  | receiver m r => r.text cat ++ " can't be bound to " ++ cat.methodText m

end DelegateProblem

/-- A member used otherwise than its declaration allows. -/
inductive MemberProblem where
  | callvirtStatic (method : Method)
  | ldvirtftnStatic (method : Method)
  | notConstructor (method : Method)
  | staticField (field : Field)
  | instanceField (field : Field)
deriving DecidableEq

namespace MemberProblem

def text (cat : Catalog) : MemberProblem → String
  | callvirtStatic m => "callvirt on static " ++ cat.methodText m
  | ldvirtftnStatic m => "ldvirtftn on static " ++ cat.methodText m
  | notConstructor m => "newobj on non-constructor " ++ cat.methodText m
  | staticField f => "instance access to static " ++ cat.fieldText f
  | instanceField f => "static access to instance " ++ cat.fieldText f

end MemberProblem

/-- Why a body, an instruction or a transfer of control is refused. -/
inductive Fault where
  | emptyStack
  | unexpected (expected : Expectation) (found : Slot)
  | heights (first second : Nat)
  | noCommonType (first second : Slot)
  /-- A backward branch carries a stack that the one fixed at its target does not accept. -/
  | backwardBranch (source target : Nat) (fixed carried : Stack)
  | operands (pairing : Pairing) (first second : Slot)
  | regions (problem : RegionProblem)
  | blockExit (block : Block) (mnemonic : String)
  | branchTarget (target : Nat)
  | leaveTarget (target : Nat)
  | misplaced (mnemonic : String)
  | blockEntry (height : Nat)
  | overflow (limit : Nat)
  | leftover (height : Nat)
  | badIndex (index : Nat)
  | tailCall
  | delegate (problem : DelegateProblem)
  | member (problem : MemberProblem)
  | fallsOff
  | emptyBody
  /-- A look-up past the end of a table. -/
  | outOfRange (index : Nat)
deriving DecidableEq

namespace Fault

/-- Succeed when a condition holds, and otherwise report a fault. -/
def check (ok : Bool) (fault : Fault) : Except Fault Unit :=
  if ok then .ok () else .error fault

variable (cat : Catalog)

def message : Fault → String
  | emptyStack => "pop from empty stack"
  | unexpected e s => "expected " ++ e.text cat ++ ", found " ++ s.text cat
  | heights m n => "stack heights " ++ toString m ++ " and " ++ toString n ++ " don't match"
  | noCommonType a b => a.text cat ++ " and " ++ b.text cat ++ " have no common type"
  | backwardBranch _ target _ _ =>
    "stack at backward branch target " ++ toString target ++ " is not general enough"
  | operands _ a b => a.text cat ++ " and " ++ b.text cat ++ " can't be combined"
  | regions p => "malformed exception regions: " ++ p.text cat
  | blockExit b _ =>
    "block ending at " ++ toString (b.span.stop - 1) ++ " ends with an illegal instruction"
  | branchTarget t => "illegal branch target " ++ toString t
  | leaveTarget t => "illegal leave to " ++ toString t
  | misplaced name => name ++ " is not allowed here"
  | blockEntry n => "block entered with " ++ toString n ++ " values on the stack"
  | overflow n => "stack grows past its maximum of " ++ toString n
  | leftover n => toString n ++ " values left on the stack"
  | badIndex i => "index " ++ toString i ++ " is out of range"
  | tailCall => "tail call is not followed by ret"
  | delegate p => "bad delegate construction: " ++ p.text cat
  | member p => "invalid member: " ++ p.text cat
  | fallsOff => "control falls off the end of the body"
  | emptyBody => "method body is empty"
  | outOfRange i => "no entry at " ++ toString i

/-- The line a fault adds to the log when it is found. -/
def detail? : Fault → Option String
  | unexpected e s => some ("Expected " ++ e.text cat ++ " but found " ++ s.text cat)
  | operands (.comparison op) a b =>
    some (op.text ++ " on " ++ a.text cat ++ " and " ++ b.text cat)
  | operands (.shift op) a b =>
    some (op.text ++ " of " ++ a.text cat ++ " by " ++ b.text cat)
  | blockExit b name => some (b.text ++ " ends with illegal " ++ name)
  | backwardBranch source target fixed carried =>
    some ("Stack " ++ fixed.text cat ++ " at " ++ toString target ++ " does not accept "
      ++ carried.text cat ++ " from " ++ toString source)
  | _ => none

end Fault

end StackTyping
