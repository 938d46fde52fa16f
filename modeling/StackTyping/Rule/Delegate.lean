import StackTyping.Rule.Basic

/-!
The construction of delegates. A delegate is built from a function pointer, so the constructor
has to come right after the instruction that loads it, with no other way into the pair, and the
function has to have the signature and receiver that the delegate calls it with.
-/

namespace StackTyping

namespace Catalog

/-- A class of delegates: below the class of all delegates, and not one of the two it starts
with. -/
def isDelegate (cat : Catalog) (t : Ty) : Bool :=
  !cat.equiv t .delegate && !cat.equiv t .multicastDelegate && cat.subtype t .delegate

/-- Two methods have equivalent results and parameters. -/
def sameSignature (cat : Catalog) (m n : Method) : Bool :=
  cat.equiv m.ret n.ret && m.params.length == n.params.length
    && (m.params.zip n.params).all fun p => cat.equiv p.1 p.2

end Catalog

namespace Body

/-- The instruction `k` places before position `i`. -/
def before? (body : Body) (i k : Nat) : Option Instr :=
  if k ≤ i then body.code[i - k]? else none

/-- The function loaded right before position `i`: by `ldftn`, or by `dup` and `ldvirtftn`. -/
def functionBefore? (body : Body) (i : Nat) : Option Method :=
  match body.before? i 2, body.before? i 1 with
  | _, some (.ldftn m) => some m
  | some .dup, some (.ldvirtftn m) => some m
  | _, _ => none

end Body

namespace Rule

variable (scope : Scope)

/-- The function may be bound to the receiver: to `null` if it is static, otherwise to an object
of its declaring type. -/
def requireReceiver (m : Method) (receiver : Slot) : Rule Unit :=
  if m.isStatic then
    require receiver.isNull (.delegate (.staticReceiver m receiver))
  else
    require ((Slot.boxedOf scope.cat (.entry m.declaring)).accepts scope.cat receiver)
      (.delegate (.receiver m receiver))

/-- Pop the function pointer and receiver of a delegate under construction at position `i`. -/
def popDelegate (i : Nat) (delegate : EntryId) : Rule Unit := do
  popCategory scope [.nativeInt]
  let receiver ← pop
  match scope.body.functionBefore? i with
  | none => throw (.delegate .noFunction)
  | some m =>
    -- no path may come in between the load of the function and the constructor
    require (!(scope.body.landings.contains i || scope.body.landings.contains (i - 1)))
      (.delegate .jumpedInto)
    match scope.cat.findMethod? delegate .invoke with
    | none => throw (.delegate (.noInvoke delegate))
    | some (_, invoke) =>
      require (scope.cat.sameSignature invoke m) (.delegate (.signature m invoke))
      requireReceiver scope m receiver

/-- Pop the parameters of a constructor and push the new object, inline for value types. -/
def construct (i : Nat) (m : Method) : Rule Unit := do
  require m.isConstructor (.member (.notConstructor m))
  if scope.cat.isDelegate (.entry m.declaring) then popDelegate scope i m.declaring
  else popArguments scope (m.params.map .declared)
  push (.declared (.entry m.declaring))

end Rule

end StackTyping
