import StackTyping.Layout.Control
import StackTyping.Rule.Step

/-!
Typing a method body in one pass.

The instructions are visited once, in order. A stack carried forward is merged into what its
target has received so far; a stack carried backward has to be accepted by the one already fixed
at its target. An instruction that nothing has reached starts with an empty stack, and a handler
or filter starts with the exception it is entered with.
-/

namespace StackTyping

/-- Why a body is refused, and at which instruction if at one. -/
structure Rejection where
  instruction? : Option Nat
  fault : Fault
deriving DecidableEq

namespace Rejection

def message (cat : Catalog) (r : Rejection) : String :=
  match r.instruction? with
  | some i => "instruction " ++ toString i ++ ": " ++ r.fault.message cat
  | none => r.fault.message cat

end Rejection

/-- The operand stack on entry to each instruction of an accepted body. -/
structure Typing where
  entries : Array Stack
deriving DecidableEq

namespace Typing

def entry? (typing : Typing) (i : Nat) : Option Stack := typing.entries[i]?

/-- The height of the tallest stack on entry to any instruction. -/
def maxHeight (typing : Typing) : Nat := (typing.entries.toList.map List.length).foldl max 0

end Typing

/-- How far a pass has come: the stacks fixed for the instructions visited, and what the others
have received so far. -/
structure Flow where
  entries : Array Stack
  pending : List (Nat × Stack)

namespace Flow

def start : Flow := ⟨#[], []⟩

/-- What an instruction has received from those before it. -/
def received (flow : Flow) (i : Nat) : Stack := (flow.pending.lookup i).getD []

/-- Fix the stack on entry to the instruction being visited. -/
def fix (flow : Flow) (stack : Stack) : Flow := { flow with entries := flow.entries.push stack }

/-- Carry a stack from one instruction to another. -/
def carry (cat : Catalog) (flow : Flow) (source target : Nat) (stack : Stack) :
    Except Fault Flow :=
  if source < target then
    match flow.pending.lookup target with
    | none => .ok { flow with pending := (target, stack) :: flow.pending }
    | some earlier => do
      let merged ← earlier.merge cat stack
      return { flow with pending := (target, merged) :: flow.pending }
  else
    -- the stack at the target is fixed, so it has to be general enough already
    match flow.entries[target]? with
    | none => .error (.outOfRange target)
    | some fixed =>
      if fixed.length ≠ stack.length then .error (.heights fixed.length stack.length)
      else if fixed.accepts cat stack then .ok flow
      else .error (.backwardBranch source target fixed stack)

end Flow

namespace Settings

/-- The stack is not taller than the settings allow. -/
def checkHeight (settings : Settings) (stack : Stack) : Except Fault Unit :=
  match settings.maxStack? with
  | some limit => Fault.check (stack.length ≤ limit) (.overflow limit)
  | none => .ok ()

end Settings

namespace Scope

variable (scope : Scope) (layout : Layout)

/-- The stack an instruction starts with, given what it has received. -/
def entryStack (i : Nat) (received : Stack) : Except Fault Stack := do
  let stack ← match layout.exceptionAt? scope.cat i with
    | some exception =>
      if received.isEmpty then .ok [exception] else .error (.blockEntry received.length)
    | none => .ok received
  if scope.settings.emptyStackAtTry && layout.startsTry i && !stack.isEmpty then
    .error (.blockEntry stack.length)
  else do
    scope.settings.checkHeight stack
    return stack

/-- The stack an instruction leaves, if it may stand where it does and its rule succeeds. -/
def exitStack (i : Nat) (instr : Instr) (stack : Stack) : Except Fault Stack := do
  layout.checkPlace scope.settings i instr
  match Rule.step scope i instr stack with
  | .error fault _ => .error fault
  | .ok _ out => do
    scope.settings.checkHeight out
    return out

/-- Carry a stack along a branch or on to the next instruction. -/
def follow (flow : Flow) (source target : Nat) (stack : Stack) : Except Fault Flow := do
  layout.checkBranch source target
  flow.carry scope.cat source target stack

def followAll (flow : Flow) (source : Nat) (stack : Stack) : List Nat → Except Fault Flow
  | [] => .ok flow
  | target :: rest => do
    let flow ← scope.follow layout flow source target stack
    followAll flow source stack rest

/-- Carry the stack an instruction leaves to its jump targets; `leave` carries an empty one. -/
def jump (flow : Flow) (i : Nat) (instr : Instr) (out : Stack) : Except Fault Flow :=
  match instr with
  | .leave target => flow.carry scope.cat i target []
  | _ => scope.followAll layout flow i out instr.targets

/-- Carry the stack an instruction leaves on to the next one. -/
def fallThrough (flow : Flow) (i : Nat) (instr : Instr) (out : Stack) : Except Fault Flow :=
  if instr.fallsThrough then
    if i + 1 < scope.body.code.length then scope.follow layout flow i (i + 1) out
    else .error .fallsOff
  else .ok flow

def visit (flow : Flow) (i : Nat) (instr : Instr) (stack : Stack) : Except Fault Flow := do
  let out ← scope.exitStack layout i instr stack
  let flow ← scope.jump layout flow i instr out
  scope.fallThrough layout flow i instr out

end Scope

/-- The outcome of a pass: the entry stacks fixed on the way and the rejection that ended it. -/
structure Report where
  entries : Array Stack
  rejection? : Option Rejection

namespace Scope

variable (scope : Scope)

/-- Visit the instructions from position `i` on. -/
def run (layout : Layout) (flow : Flow) (i : Nat) : List Instr → Report
  | [] => ⟨flow.entries, none⟩
  | instr :: rest =>
    match scope.entryStack layout i (flow.received i) with
    | .error fault => ⟨flow.entries, some ⟨some i, fault⟩⟩
    | .ok stack =>
      let flow := flow.fix stack
      match scope.visit layout flow i instr stack with
      | .error fault => ⟨flow.entries, some ⟨some i, fault⟩⟩
      | .ok flow => run layout flow (i + 1) rest

/-- The layout of the body, if it has instructions and its blocks end as they should. -/
def layout : Except Fault Layout :=
  if scope.body.code.isEmpty then .error .emptyBody
  else
    match Layout.ofRegions scope.body.regions scope.body.code.length with
    | .error problem => .error (.regions problem)
    | .ok layout => do
      layout.checkEnds scope.body.code
      return layout

def report : Report :=
  match scope.layout with
  | .error fault => ⟨#[], some ⟨none, fault⟩⟩
  | .ok layout => scope.run layout .start 0 scope.body.code

end Scope

/-- Type a method body, or say why it is refused. -/
def verify (cat : Catalog) (body : Body) (settings : Settings) : Except Rejection Typing :=
  let report := (Scope.mk cat body settings).report
  match report.rejection? with
  | some rejection => .error rejection
  | none => .ok ⟨report.entries⟩

def hasTyping (cat : Catalog) (body : Body) (settings : Settings) : Bool :=
  (verify cat body settings).isOk

end StackTyping
