import StackTyping.Slot.Basic

/-!
Signatures of methods as a call site or a body sees them, and the receiver they imply.
-/

namespace StackTyping

/-- How a call finds the method to run. -/
inductive Dispatch where
  | direct
  | virtual
deriving DecidableEq

/-- Parameters, result and receiver of a method; `params` leaves out the receiver. -/
structure Signature where
  declaring : Ty
  params : List Slot
  ret : Slot
  isStatic : Bool
  dispatch : Dispatch
deriving DecidableEq

namespace Signature

variable (cat : Catalog)

/-- The type of the receiver. A value type is received through a pointer when called directly,
and boxed when the call is virtual. -/
def receiver? (sig : Signature) : Option Slot :=
  if sig.isStatic then none
  else if cat.isBoxable sig.declaring then
    match sig.dispatch with
    | .direct => some (.declared (.pointer sig.declaring))
    | .virtual => some (.boxedOf cat sig.declaring)
  else some (.declared sig.declaring)

/-- All arguments in the order in which they are pushed, the receiver first. -/
def arguments (sig : Signature) : List Slot := (sig.receiver? cat).toList ++ sig.params

/-- A call leaves a value on the stack. -/
def hasResult (sig : Signature) : Bool := !sig.ret.isVoid cat

end Signature

namespace Method

def isConstructor (m : Method) : Bool := !m.isStatic && m.name == .constructor

def signature (m : Method) (dispatch : Dispatch) : Signature where
  declaring := .entry m.declaring
  params := m.params.map .declared
  ret := .declared m.ret
  isStatic := m.isStatic
  dispatch := dispatch

end Method

end StackTyping
