import StackTyping.Code.Body
import StackTyping.Slot.Merge

/-!
Rules that act on an operand stack.

A rule either succeeds with a new stack or fails with a fault, and the operands it popped before
failing stay popped. Reading a variable or a member never touches the stack, so a rule that
checks those first leaves the stack as it was when they are wrong.
-/

namespace StackTyping

/-- What the rules may look at besides the stack. -/
structure Scope where
  cat : Catalog
  body : Body
  settings : Settings

namespace Scope

def arguments (scope : Scope) : List Slot := scope.body.signature.arguments scope.cat

def var? (scope : Scope) : Var → Option Slot
  | .arg i => scope.arguments[i]?
  | .loc i => scope.body.locals[i]?.map .declared

end Scope

namespace Var

def index : Var → Nat
  | arg i | loc i => i

end Var

/-- A step that reads and changes an operand stack, or fails. -/
abbrev Rule (α : Type) := EStateM Fault Stack α

namespace Rule

def require (ok : Bool) (fault : Fault) : Rule Unit :=
  if ok then pure () else throw fault

def push (s : Slot) : Rule Unit
  | stack => .ok () (s :: stack)

def pop : Rule Slot
  | [] => .error .emptyStack []
  | s :: stack => .ok s stack

def clear : Rule Unit
  | _ => .ok () []

def requireEmpty : Rule Unit
  | [] => .ok () []
  | stack => .error (.leftover stack.length) stack

variable (scope : Scope)

def readVar (v : Var) : Rule Slot :=
  match scope.var? v with
  | some s => pure s
  | none => throw (.badIndex v.index)

def addressOf (s : Slot) : Rule Slot :=
  match s.ty, s.boxed with
  | some t, false => pure (.declared (.pointer t))
  | _, _ => throw (.unexpected .location s)

/-- Pop a value that may be used where `expected` is. -/
def popAccepted (expected : Slot) : Rule Unit := do
  let actual ← pop
  require (expected.accepts scope.cat actual) (.unexpected (.slot expected) actual)

/-- Pop values for a list of expected types, the last one first. -/
def popArguments : List Slot → Rule Unit
  | [] => pure ()
  | s :: rest => do
    popArguments rest
    popAccepted scope s

/-- Pop a value that may be stored in a location of the given type. -/
def popStored (location : Slot) : Rule Unit := do
  let actual ← pop
  require (location.stores scope.cat actual) (.unexpected (.slot location) actual)

/-- Pop a number of one of some categories. -/
def popCategory (categories : List Category) : Rule Unit := do
  let actual ← pop
  require ((actual.category? scope.cat).any categories.contains)
    (.unexpected (.categories categories) actual)

def popIndex : Rule Unit := popCategory scope [.int32, .nativeInt]

def popReference : Rule Unit := do
  let actual ← pop
  require (actual.isReference scope.cat) (.unexpected .reference actual)

/-- Pop an array and return its element type; `null` has none. -/
def popArray : Rule (Option Ty) := do
  let actual ← pop
  require (actual.isNull || actual.isArray scope.cat) (.unexpected .array actual)
  return actual.element? scope.cat

/-- Pop a pointer and return the type of the location it leads to. -/
def popPointer : Rule Ty := do
  let actual ← pop
  match actual.isPointer scope.cat, actual.element? scope.cat with
  | true, some t => pure t
  | _, _ => throw (.unexpected .pointer actual)

/-! ### Locations -/

/-- Two location types agree up to the sign of numbers. -/
def sameLocation (actual expected : Ty) : Rule Unit :=
  let found := Slot.declared actual
  let wanted := Slot.declared expected
  require ((found.weak scope.cat).equiv scope.cat (wanted.weak scope.cat))
    (.unexpected (.slot wanted) found)

/-- The type of a value loaded from a location of type `actual` by an instruction that names
`expected`. References keep the more precise type of the location. -/
def loaded (actual expected : Ty) : Rule Slot :=
  let found := Slot.declared actual
  let wanted := Slot.declared expected
  if scope.cat.isBoxable actual || scope.cat.isBoxable expected then
    if wanted.stores scope.cat found && found.stores scope.cat wanted then pure wanted
    else throw (.unexpected (.slot wanted) found)
  else if wanted.accepts scope.cat found then pure found
  else throw (.unexpected (.slot wanted) found)

/-- A location of type `actual` may be stored to by an instruction that names `expected`. Among
references any pair may: the store is checked again when it runs. -/
def storable (actual expected : Ty) : Rule Unit :=
  let found := Slot.declared actual
  let wanted := Slot.declared expected
  if scope.cat.isBoxable actual || scope.cat.isBoxable expected then
    sameLocation scope actual expected
  else
    require (found.isReference scope.cat && wanted.isReference scope.cat)
      (.unexpected (.slot wanted) found)

/-! ### Numbers -/

def combined (pairing : Pairing) (allowFloat : Bool) (left right : Slot) : Rule Category :=
  match left.category? scope.cat, right.category? scope.cat with
  | some a, some b =>
    match Category.combine allowFloat a b with
    | some c => pure c
    | none => throw (.operands pairing left right)
  | _, _ => throw (.operands pairing left right)

/-- Two references, two pointers or two numbers that combine may be compared. -/
def comparable (pairing : Pairing) (left right : Slot) : Rule Unit :=
  if left.isReference scope.cat && right.isReference scope.cat
      || left.isPointer scope.cat && right.isPointer scope.cat then pure ()
  else discard (combined scope pairing true left right)

/-! ### Fields -/

def requireInstance (f : Field) : Rule Unit := require (!f.isStatic) (.member (.staticField f))

def requireStatic (f : Field) : Rule Unit := require f.isStatic (.member (.instanceField f))

/-- Pop the object that a field belongs to: a pointer to it or, where `direct` allows, the value
itself if its type is a value type, a reference to it otherwise. -/
def popOwner (f : Field) (direct : Bool) : Rule Unit := do
  let owner ← pop
  let type := Ty.entry f.declaring
  let expected := Slot.declared type
  let ok :=
    if scope.cat.isBoxable type then
      direct && owner.equiv scope.cat expected
        || owner.isPointer scope.cat && (owner.element? scope.cat).any (scope.cat.equiv · type)
    else !owner.isPointer scope.cat && expected.accepts scope.cat owner
  require ok (.unexpected (.slot expected) owner)

/-! ### Calls -/

/-- Pop the arguments of a call and push its result. -/
def invoke (m : Method) (dispatch : Dispatch) : Rule Unit := do
  let sig := m.signature dispatch
  popArguments scope (sig.arguments scope.cat)
  if sig.hasResult scope.cat then push sig.ret

/-- A tail call has to be followed by `ret`. -/
def requireTail (i : Nat) (flags : Flags) : Rule Unit :=
  let followed := match scope.body.code[i + 1]? with
    | some .ret => true
    | _ => false
  require (!(flags.tail && scope.settings.checkTailCalls && !followed)) .tailCall

end Rule

end StackTyping
