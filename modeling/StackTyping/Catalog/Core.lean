import StackTyping.Catalog.Basic

/-!
The catalog that every other one grows from. It lists the types that the rules themselves refer
to, at the positions `EntryId` gives them.
-/

namespace StackTyping

namespace Primitive

def typeName (p : Primitive) : TypeName := ⟨"System." ++ p.text⟩

end Primitive

namespace Catalog

def coreClass (name : TypeName) (base? : Option EntryId) : Entry :=
  ⟨some name, .classType, base?⟩

/-- The core types other than the primitives. -/
def coreEntries : List Entry :=
  [ coreClass ⟨"System.Object"⟩ none,
    coreClass ⟨"System.ValueType"⟩ (some EntryId.object),
    coreClass ⟨"System.Enum"⟩ (some EntryId.valueType),
    coreClass ⟨"System.Array"⟩ (some EntryId.object),
    coreClass ⟨"System.Delegate"⟩ (some EntryId.object),
    coreClass ⟨"System.MulticastDelegate"⟩ (some EntryId.delegate),
    coreClass ⟨"System.String"⟩ (some EntryId.object),
    coreClass ⟨"System.Exception"⟩ (some EntryId.object),
    ⟨some ⟨"System.Void"⟩, .void, some EntryId.valueType⟩ ]

def primitiveEntry (p : Primitive) : Entry :=
  ⟨some p.typeName, .valueType (some p), some EntryId.valueType⟩

/-- The catalog of the core types, without interfaces, methods or fields. -/
def core : Catalog where
  entries := (coreEntries ++ Primitive.all.map primitiveEntry).toArray
  implements := []
  methods := #[]
  fields := #[]

theorem core_entries_ofPrimitive (p : Primitive) :
    core.entries[EntryId.ofPrimitive p]? = some (primitiveEntry p) := by
  cases p <;> rfl

end Catalog

end StackTyping
