import StackTyping.Code.Instr
import StackTyping.Code.Region

/-!
A method body and the settings it is checked under.
-/

namespace StackTyping

structure Body where
  /-- Used in reports only. -/
  name : String
  signature : Signature
  locals : List Ty
  code : List Instr
  regions : List Region

namespace Body

/-- The positions that control reaches otherwise than from the instruction before. -/
def landings (body : Body) : List Nat :=
  body.code.flatMap Instr.targets ++ body.regions.flatMap Region.entryPoints

end Body

/-- What is asked of a body beyond the typing rules. -/
structure Settings where
  /-- The height that no stack may exceed. -/
  maxStack? : Option Nat := none
  /-- A try interval is entered with nothing on the stack. -/
  emptyStackAtTry : Bool := true
  /-- `ret` is also allowed inside try intervals and handlers. -/
  returnFromBlocks : Bool := false
  /-- A tail call is followed by `ret`. -/
  checkTailCalls : Bool := true
deriving DecidableEq

end StackTyping
