import StackTyping.Catalog.Core

/-!
How a catalog grows. Every operation appends: what was known before keeps its position and its
meaning. Names are unique, so asking for a named type twice gives the same entry; array and
pointer entries have no name, so asking for one twice gives two entries.
-/

namespace StackTyping.Catalog

variable (cat : Catalog)

def append (e : Entry) : EntryId × Catalog :=
  (cat.entries.size, { cat with entries := cat.entries.push e })

/-- Add a named type; if the name is taken, return the type that has it. -/
def declareType (name : TypeName) (kind : Kind EntryId) (base? : Option EntryId) :
    EntryId × Catalog :=
  match cat.find? name with
  | some i => (i, cat)
  | none => cat.append ⟨some name, kind, base?⟩

def declareClass (name : TypeName) (base : EntryId) : EntryId × Catalog :=
  cat.declareType name .classType (some base)

def declareInterface (name : TypeName) : EntryId × Catalog :=
  cat.declareType name .interface none

def declareValueType (name : TypeName) : EntryId × Catalog :=
  cat.declareType name (.valueType none) (some EntryId.valueType)

def declareEnum (name : TypeName) : EntryId × Catalog :=
  cat.declareType name .enumType (some EntryId.enumBase)

def newArray (element : EntryId) : EntryId × Catalog :=
  cat.append ⟨none, .array element, some EntryId.array⟩

def newPointer (element : EntryId) : EntryId × Catalog :=
  cat.append ⟨none, .pointer element, none⟩

/-- Declare that a type implements an interface, or that an interface extends one. -/
def implement (type interface : EntryId) : Catalog :=
  { cat with implements := cat.implements ++ [(type, interface)] }

def declareMethod (m : Method) : Catalog :=
  { cat with methods := cat.methods.push m }

def declareField (f : Field) : Catalog :=
  { cat with fields := cat.fields.push f }

end StackTyping.Catalog
