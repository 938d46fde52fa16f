import Mathlib.Logic.Relation
import Mathlib.Tactic.Common
import StackTyping.Catalog.Growth

/-!
The operations on a catalog, as data.

What is shown of a catalog is shown of all those that some operations lead to: any operations, those
that keep the hierarchy in shape, or those that declare nothing about the types that are there. So
the operations are listed once, with the entries that each of them links to, and every such class of
catalogs is a condition on single operations.
-/

namespace StackTyping.Catalog

/-- An operation. Classes, interfaces, value types and enumerations are types that are declared with
a kind and a base. -/
inductive Op where
  | declareType (name : TypeName) (kind : Kind EntryId) (base? : Option EntryId)
  | newArray (element : EntryId)
  | newPointer (element : EntryId)
  | implement (type interface : EntryId)
  | declareMethod (m : Method)
  | declareField (f : Field)

def apply (cat : Catalog) : Op → Catalog
  | .declareType name kind base? => (cat.declareType name kind base?).2
  | .newArray element => (cat.newArray element).2
  | .newPointer element => (cat.newPointer element).2
  | .implement type interface => cat.implement type interface
  | .declareMethod m => cat.declareMethod m
  | .declareField f => cat.declareField f

namespace Op

abbrev declareClass (name : TypeName) (base : EntryId) : Op :=
  declareType name .classType (some base)

abbrev declareInterface (name : TypeName) : Op := declareType name .interface none

/-- Types are linked to entries that the catalog has. -/
def Linked (cat : Catalog) : Op → Prop
  | declareType _ kind base? =>
    (∀ e ∈ kind.element?, e < cat.entries.size) ∧ ∀ b ∈ base?, b < cat.entries.size
  | newArray element | newPointer element => element < cat.entries.size
  | implement type interface => type < cat.entries.size ∧ interface < cat.entries.size
  | declareMethod _ | declareField _ => True

instance (cat : Catalog) : (op : Op) → Decidable (op.Linked cat)
  | declareType .. | implement .. => inferInstanceAs (Decidable (_ ∧ _))
  | newArray _ | newPointer _ => inferInstanceAs (Decidable (_ < _))
  | declareMethod _ | declareField _ => .isTrue trivial

end Op

inductive Step (P : Catalog → Op → Prop) (cat : Catalog) : Catalog → Prop where
  | apply (op : Op) (hlinks : op.Linked cat) (h : P cat op) : Step P cat (cat.apply op)

/-- Operations that `P` allows lead from one catalog to another. -/
def Grows (P : Catalog → Op → Prop) (cat later : Catalog) : Prop :=
  Relation.ReflTransGen (Step P) cat later

/-- The catalogs that can be built: whatever operations there are, in any order. Types are declared
with any kind and any base, arrays and pointers are built over any entry, and any entry is declared
to implement any. -/
def Built (cat : Catalog) : Prop := Grows (fun _ _ => True) core cat

variable {P Q : Catalog → Op → Prop} {cat later : Catalog}

namespace Grows

lemma apply (h : Grows P cat later) (op : Op) (hlinks : op.Linked later) (hop : P later op) :
    Grows P cat (later.apply op) := Relation.ReflTransGen.tail h (.apply op hlinks hop)

lemma mono (hPQ : ∀ cat op, P cat op → Q cat op) (h : Grows P cat later) : Grows Q cat later := by
  refine Relation.ReflTransGen.mono ?_ _ _ h
  rintro cat _ ⟨op, hlinks, hop⟩
  exact .apply op hlinks (hPQ cat op hop)

lemma built (h : Grows P core cat) : Built cat := h.mono fun _ _ _ => trivial

end Grows

namespace Built

lemma core : Built core := .refl

lemma apply (h : Built cat) (op : Op) (hlinks : op.Linked cat) : Built (cat.apply op) :=
  Grows.apply h op hlinks trivial

end Built

end StackTyping.Catalog
