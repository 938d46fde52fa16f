import StackTyping.Catalog.Subtype

/-!
The type of one slot of the operand stack, also used for arguments, locals and fields.

A slot holds a value of a type, or `null`, which has none. The boxed flag tells a reference to a
boxed value from the value itself; it is meant for value types and enumerations, and
`Slot.boxedOf` sets it on no others.
-/

namespace StackTyping

structure Slot where
  ty : Option Ty
  boxed : Bool
deriving DecidableEq

namespace Slot

def null : Slot := ⟨none, false⟩

/-- A value of the type as it is declared; value types are inline. -/
def declared (t : Ty) : Slot := ⟨some t, false⟩

/-- A reference to a value of the type, boxed if it has to be. -/
def boxedOf (cat : Catalog) (t : Ty) : Slot := ⟨some t, cat.isBoxable t⟩

def ofPrimitive (p : Primitive) : Slot := declared (.ofPrimitive p)

def ofCategory (c : Category) : Slot := ofPrimitive c.representative

def isNull (s : Slot) : Bool := s.ty.isNone

variable (cat : Catalog)

/-- The type is a value type or enumeration, boxed or not. -/
def isBoxable (s : Slot) : Bool := s.ty.any cat.isBoxable

/-- An inline value of a value type or enumeration. -/
def isInline (s : Slot) : Bool := s.isBoxable cat && !s.boxed

def isPointer (s : Slot) : Bool := s.ty.any cat.isPointer

def isArray (s : Slot) : Bool := s.ty.any cat.isArray

def isVoid (s : Slot) : Bool := s.ty.any cat.isVoid

/-- An object reference: `null`, a boxed value or an instance of a reference type. -/
def isReference (s : Slot) : Bool :=
  match s.ty with
  | none => true
  | some t => s.boxed || !(cat.isBoxable t || cat.isExact t)

def primitive? (s : Slot) : Option Primitive :=
  if s.boxed then none else s.ty.bind cat.primitive?

def element? (s : Slot) : Option Ty := s.ty.bind cat.element?

def category? (s : Slot) : Option Category := (s.primitive? cat).map .ofPrimitive

/-- The slot with an inline primitive replaced by its representative by machine size. -/
def strong (s : Slot) : Slot :=
  match s.primitive? cat with
  | some p => ofPrimitive p.strong
  | none => s

/-- The slot with an inline primitive replaced by its representative by width. -/
def weak (s : Slot) : Slot :=
  match s.primitive? cat with
  | some p => ofPrimitive p.weak
  | none => s

/-- The same type of slot: equal flags and equivalent types. -/
def equiv (a b : Slot) : Bool :=
  a.boxed == b.boxed &&
    match a.ty, b.ty with
    | none, none => true
    | some s, some t => cat.equiv s t
    | _, _ => false

def text (s : Slot) : String :=
  match s.ty with
  | none => "null"
  | some t => if s.boxed then "boxed " ++ cat.nameOf t else cat.nameOf t

end Slot

/-- An operand stack, top first. -/
abbrev Stack := List Slot

namespace Stack

/-- The slots in brackets, bottom first. -/
def text (cat : Catalog) (stack : Stack) : String :=
  "[" ++ ", ".intercalate (stack.reverse.map (·.text cat)) ++ "]"

end Stack

end StackTyping
