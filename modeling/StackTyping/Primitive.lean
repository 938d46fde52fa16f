/-!
The fourteen numeric types and the two ways in which they are identified with each other.
Passing a value to a variable or parameter compares strong representatives, which only tell
apart the sizes the machine computes with. Joining paths and storing through memory compares
weak representatives, which keep the width and forget the sign.
-/

namespace StackTyping

/-- The numeric, Boolean and character types. -/
inductive Primitive where
  | boolean
  | char
  | sbyte
  | byte
  | int16
  | uint16
  | int32
  | uint32
  | int64
  | uint64
  | intptr
  | uintptr
  | single
  | double
deriving DecidableEq

namespace Primitive

def all : List Primitive :=
  [boolean, char, sbyte, byte, int16, uint16, int32, uint32, int64, uint64, intptr, uintptr,
    single, double]

def text : Primitive → String
  | boolean => "Boolean"
  | char => "Char"
  | sbyte => "SByte"
  | byte => "Byte"
  | int16 => "Int16"
  | uint16 => "UInt16"
  | int32 => "Int32"
  | uint32 => "UInt32"
  | int64 => "Int64"
  | uint64 => "UInt64"
  | intptr => "IntPtr"
  | uintptr => "UIntPtr"
  | single => "Single"
  | double => "Double"

/-- The representative by machine size: native integers count with the 32-bit ones. -/
def strong : Primitive → Primitive
  | int64 | uint64 => int64
  | single | double => double
  | _ => int32

/-- The representative by width: the signed type that takes as many bits. -/
def weak : Primitive → Primitive
  | boolean | byte | sbyte => sbyte
  | char | uint16 | int16 => int16
  | uint32 | int32 => int32
  | uint64 | int64 => int64
  | uintptr | intptr => intptr
  | single => single
  | double => double

@[simp] theorem strong_strong (p : Primitive) : p.strong.strong = p.strong := by
  cases p <;> rfl

@[simp] theorem weak_weak (p : Primitive) : p.weak.weak = p.weak := by
  cases p <;> rfl

/-- Equal width implies equal machine size. -/
@[simp] theorem strong_weak (p : Primitive) : p.weak.strong = p.strong := by
  cases p <;> rfl

end Primitive

/-- The four classes of number that arithmetic tells apart. -/
inductive Category where
  | int32
  | int64
  | nativeInt
  | float
deriving DecidableEq

namespace Category

def text : Category → String
  | int32 => "Int32"
  | int64 => "Int64"
  | nativeInt => "NativeInt"
  | float => "Float"

def ofPrimitive : Primitive → Category
  | .int64 | .uint64 => int64
  | .intptr | .uintptr => nativeInt
  | .single | .double => float
  | _ => int32

/-- The primitive that stands for a category on the stack. -/
def representative : Category → Primitive
  | int32 => .int32
  | int64 => .int64
  | nativeInt => .intptr
  | float => .double

/-- The category of the result of a binary operator, if the operands combine. Native and
32-bit integers mix; floats combine only under operators that allow them. -/
def combine (allowFloat : Bool) : Category → Category → Option Category
  | int32, int32 => some int32
  | int64, int64 => some int64
  | nativeInt, nativeInt => some nativeInt
  | nativeInt, int32 => some nativeInt
  | int32, nativeInt => some nativeInt
  | float, float => if allowFloat then some float else none
  | _, _ => none

@[simp] theorem ofPrimitive_representative (c : Category) :
    ofPrimitive c.representative = c := by
  cases c <;> rfl

theorem combine_comm (allowFloat : Bool) (a b : Category) :
    combine allowFloat a b = combine allowFloat b a := by
  cases a <;> cases b <;> rfl

end Category

end StackTyping
