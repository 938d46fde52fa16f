import StackTyping.Slot.Basic

/-!
Which slots a value may be passed to and stored in.

Passing compares inline numbers by machine size, lets `null` stand for any reference and follows
subtyping between references. Storing a number through memory compares it by width, so it
neither narrows nor widens.
-/

namespace StackTyping.Slot

variable (cat : Catalog)

/-- A value of type `source` may be used where `target` is expected. -/
def accepts (target source : Slot) : Bool :=
  let target := target.strong cat
  let source := source.strong cat
  target.equiv cat source ||
    match target.ty, source.ty with
    | none, _ => false
    | some _, none => !target.isInline cat
    | some t, some s => !target.isInline cat && !source.isInline cat && cat.subtype s t

/-- A value of type `source` may be stored in a location of type `target`. -/
def stores (target source : Slot) : Bool :=
  if (target.primitive? cat).isSome then (target.weak cat).equiv cat (source.weak cat)
  else target.accepts cat source

end StackTyping.Slot

namespace StackTyping.Stack

/-- Every slot of `general` accepts the matching slot of `specific`. -/
def accepts (cat : Catalog) (general specific : Stack) : Bool :=
  general.length == specific.length &&
    (general.zip specific).all fun p => p.1.accepts cat p.2

end StackTyping.Stack
