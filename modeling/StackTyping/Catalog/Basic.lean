import StackTyping.Links
import StackTyping.Name
import StackTyping.Primitive

/-!
The catalog lists the types, methods and fields that a method body may refer to. It only ever
grows, so a position in it identifies a type for good.

Array and pointer types come in two forms. One is an entry of the catalog, which can declare
interfaces and members of its own like any other entry. The other is a term built over a type,
which declares nothing; typing a method body only ever builds terms, so it leaves the catalog
alone. Every question about a type goes through `Catalog.kind` and `Catalog.base?`, which read
both forms alike.

A base or element link counts only when it leads to an earlier entry. Entries are added with
links to types that exist already, so no link is lost by this; and every chain of links ends.
-/

namespace StackTyping

/-- The position of an entry in the catalog. -/
abbrev EntryId := Nat

/-- A type: an entry of the catalog, or an array or pointer over a type. -/
inductive Ty where
  | entry (id : EntryId)
  | array (element : Ty)
  | pointer (element : Ty)
deriving DecidableEq

/-- What sort of type this is, with links of type `α` to element types. -/
inductive Kind (α : Type) where
  /-- A reference type with a body of its own. -/
  | classType
  | interface
  /-- A type whose values are held inline, possibly one of the primitives. -/
  | valueType (primitive? : Option Primitive)
  | enumType
  /-- The type of a call that returns nothing. -/
  | void
  | array (element : α)
  | pointer (element : α)
deriving DecidableEq

namespace Kind

variable {α : Type}

/-- Values of these types exist inline and boxed. -/
def isBoxable : Kind α → Bool
  | valueType _ | enumType => true
  | _ => false

def isEnum : Kind α → Bool
  | enumType => true
  | _ => false

def isInterface : Kind α → Bool
  | interface => true
  | _ => false

def isArray : Kind α → Bool
  | array _ => true
  | _ => false

def isPointer : Kind α → Bool
  | pointer _ => true
  | _ => false

def isVoid : Kind α → Bool
  | void => true
  | _ => false

def element? : Kind α → Option α
  | array e | pointer e => some e
  | _ => none

def primitive? : Kind α → Option Primitive
  | valueType p => p
  | _ => none

/-- The kind of the entry at position `i`, from the links stored there. -/
def before (i : EntryId) : Kind EntryId → Kind Ty
  | classType => classType
  | interface => interface
  | valueType p => valueType p
  | enumType => enumType
  | void => void
  | array j => if j < i then array (.entry j) else void
  | pointer j => if j < i then pointer (.entry j) else void

end Kind

/-- An entry of the catalog. Array and pointer entries that were built over a type have no name
of their own. -/
structure Entry where
  name? : Option TypeName
  kind : Kind EntryId
  base? : Option EntryId
deriving DecidableEq

/-- A method of the type at position `declaring`; `params` leaves out the receiver. -/
structure Method where
  declaring : EntryId
  name : MemberName
  params : List Ty
  ret : Ty
  isStatic : Bool
  isVirtual : Bool
deriving DecidableEq

/-- A field of the type at position `declaring`. -/
structure Field where
  declaring : EntryId
  name : MemberName
  type : Ty
  isStatic : Bool
deriving DecidableEq

/-- The types, interface declarations, methods and fields known so far, oldest first. -/
structure Catalog where
  entries : Array Entry
  implements : Links
  methods : Array Method
  fields : Array Field
deriving DecidableEq

/-! ### Types that the rules refer to

They head the catalog in this order, followed by the primitives. -/

namespace EntryId

def object : EntryId := 0
def valueType : EntryId := 1
def enumBase : EntryId := 2
/-- The class that every array type extends. -/
def array : EntryId := 3
def delegate : EntryId := 4
def multicastDelegate : EntryId := 5
def string : EntryId := 6
def exception : EntryId := 7
def void : EntryId := 8

def ofPrimitive : Primitive → EntryId
  | .boolean => 9
  | .char => 10
  | .sbyte => 11
  | .byte => 12
  | .int16 => 13
  | .uint16 => 14
  | .int32 => 15
  | .uint32 => 16
  | .int64 => 17
  | .uint64 => 18
  | .intptr => 19
  | .uintptr => 20
  | .single => 21
  | .double => 22

end EntryId

namespace Ty

def object : Ty := .entry EntryId.object
def enumBase : Ty := .entry EntryId.enumBase
def arrayBase : Ty := .entry EntryId.array
def delegate : Ty := .entry EntryId.delegate
def multicastDelegate : Ty := .entry EntryId.multicastDelegate
def string : Ty := .entry EntryId.string
def void : Ty := .entry EntryId.void
def ofPrimitive (p : Primitive) : Ty := .entry (EntryId.ofPrimitive p)

/-- A number that gets smaller along every base and element link. -/
def rank : Ty → Nat
  | entry i => i
  | array e => e.rank + EntryId.array + 1
  | pointer e => e.rank + 1

end Ty

/-! ### Reading the catalog -/

namespace Catalog

variable (cat : Catalog)

/-- The kind of a type; a position past the end of the catalog is void. -/
def kind : Ty → Kind Ty
  | .entry i =>
    match cat.entries[i]? with
    | some e => e.kind.before i
    | none => .void
  | .array e => .array e
  | .pointer e => .pointer e

def baseId? (i : EntryId) : Option EntryId :=
  (cat.entries[i]?.bind (·.base?)).filter (· < i)

/-- The base type: the one declared for an entry, the common array class for an array, and none
for a pointer. -/
def base? : Ty → Option Ty
  | .entry i => (cat.baseId? i).map .entry
  | .array _ => some .arrayBase
  | .pointer _ => none

/-- The name that was given to the type itself. -/
def ownName? : Ty → Option TypeName
  | .entry i => cat.entries[i]?.bind (·.name?)
  | _ => none

/-- The interfaces declared on the type itself, in order. -/
def declaredInterfaces : Ty → List EntryId
  | .entry i => cat.implements.targets i
  | _ => []

def find? (name : TypeName) : Option EntryId :=
  cat.entries.findIdx? (·.name? == some name)

/-- The positions of the methods declared on an entry, in order. -/
def methodsOf (i : EntryId) : List (Nat × Method) :=
  cat.methods.toList.zipIdx.filterMap fun (m, n) => if m.declaring == i then some (n, m) else none

def fieldsOf (i : EntryId) : List Field :=
  cat.fields.toList.filter (·.declaring == i)

/-- The first method declared on an entry under a name, with its position. -/
def findMethod? (i : EntryId) (name : MemberName) : Option (Nat × Method) :=
  (cat.methodsOf i).find? (·.2.name == name)

def isBoxable (t : Ty) : Bool := (cat.kind t).isBoxable
def isEnum (t : Ty) : Bool := (cat.kind t).isEnum
def isInterface (t : Ty) : Bool := (cat.kind t).isInterface
def isArray (t : Ty) : Bool := (cat.kind t).isArray
def isPointer (t : Ty) : Bool := (cat.kind t).isPointer
def isVoid (t : Ty) : Bool := (cat.kind t).isVoid
def element? (t : Ty) : Option Ty := (cat.kind t).element?
def primitive? (t : Ty) : Option Primitive := (cat.kind t).primitive?

/-- A class without a base: the top of the hierarchy. -/
def isTop (t : Ty) : Bool := cat.kind t == .classType && (cat.base? t).isNone

variable {cat}

theorem baseId?_lt {i j : EntryId} (h : cat.baseId? i = some j) : j < i := by
  simpa using (Option.filter_eq_some_iff.1 h).2

theorem rank_base?_lt {s t : Ty} (h : cat.base? s = some t) : t.rank < s.rank := by
  cases s with
  | entry i =>
    obtain ⟨j, hj, rfl⟩ := Option.map_eq_some_iff.1 h
    exact baseId?_lt hj
  | array e =>
    cases h
    simp only [Ty.rank, Ty.arrayBase]
    omega
  | pointer e => cases h

theorem rank_element?_lt {s t : Ty} (h : cat.element? s = some t) : t.rank < s.rank := by
  cases s with
  | entry i =>
    simp only [element?, kind] at h
    split at h
    · rename_i e _
      cases hk : e.kind <;> simp only [hk, Kind.before] at h <;> try cases h
      all_goals
        split at h
        · cases h; assumption
        · cases h
    · cases h
  | array e =>
    cases h
    simp only [Ty.rank]
    omega
  | pointer e =>
    cases h
    simp only [Ty.rank]
    omega

theorem rank_array_lt {s t : Ty} (h : cat.kind s = .array t) : t.rank < s.rank :=
  @rank_element?_lt cat s t (by rw [element?, h]; rfl)

theorem rank_pointer_lt {s t : Ty} (h : cat.kind s = .pointer t) : t.rank < s.rank :=
  @rank_element?_lt cat s t (by rw [element?, h]; rfl)

variable (cat)

/-- The text a type is shown as: its own name, or the text of its element type with a suffix. -/
def nameOf (t : Ty) : String :=
  match cat.ownName? t with
  | some name => name.text
  | none =>
    match _h : cat.kind t with
    | .array e => arrayText (nameOf e)
    | .pointer e => pointerText (nameOf e)
    | _ => ""
termination_by t.rank
decreasing_by
  · exact rank_array_lt _h
  · exact rank_pointer_lt _h

def kindText (t : Ty) : String :=
  match cat.kind t with
  | .classType => "Class"
  | .interface => "Interface"
  | .valueType none => "ValueType(None)"
  | .valueType (some p) => "ValueType(Some(" ++ p.text ++ "))"
  | .enumType => "Enum"
  | .void => "Void"
  | .array e => "Array(" ++ cat.nameOf e ++ ")"
  | .pointer e => "ByRef(" ++ cat.nameOf e ++ ")"

/-- A method written as declaring type, name, parameters and result. -/
def methodText (m : Method) : String :=
  cat.nameOf (.entry m.declaring) ++ "::" ++ m.name.text ++ "("
    ++ ", ".intercalate (m.params.map cat.nameOf) ++ "): " ++ cat.nameOf m.ret

def fieldText (f : Field) : String :=
  cat.nameOf (.entry f.declaring) ++ "::" ++ f.name.text ++ ": " ++ cat.nameOf f.type

end Catalog

end StackTyping
