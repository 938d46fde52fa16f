import StackTyping.Fault
import StackTyping.Slot.Assign

/-!
The type of a slot where two paths meet.

`null` gives way to any reference. Inline values, pointers and void only merge with themselves,
up to the width of numbers. Arrays of references merge by their elements, arrays of values fall
back to the common array class. Otherwise two references meet in a shared interface if one of
them is an interface, and in their last common base type if not.
-/

namespace StackTyping

namespace Catalog

variable (cat : Catalog)

/-- An interface that both types have, or the top class. The search goes through the interfaces
of the type with the smaller name, so the order of the two does not matter. -/
def sharedInterface (s t : Ty) : Ty :=
  let (first, second) := if cat.nameOf t < cat.nameOf s then (t, s) else (s, t)
  let shared? := (cat.interfaces first).find? fun i =>
    (cat.interfaces second).any fun j => cat.equiv (.entry i) (.entry j)
  match shared? with
  | some i => .entry i
  | none => .object

/-- The last type on which the two chains of base types agree, read from the top down. The first
chain has to start at the top of the hierarchy. -/
def sharedBase? (s t : Ty) : Option Ty :=
  let chain := cat.baseChain s
  if chain.head?.any cat.isTop then
    ((chain.zip (cat.baseChain t)).takeWhile fun p => cat.equiv p.1 p.2).getLast?.map (·.1)
  else none

end Catalog

namespace Slot

variable (cat : Catalog)

/-- Inline values, pointers and void merge with nothing else. -/
def isRigid (s : Slot) : Bool := s.isInline cat || s.isPointer cat || s.isVoid cat

/-- The common type of two slots. -/
def merge (a b : Slot) : Except Fault Slot :=
  match _ha : a.ty, b.ty with
  | none, _ => if b.isInline cat then .error (.noCommonType a b) else .ok b
  | some _, none => if a.isInline cat then .error (.noCommonType a b) else .ok a
  | some s, some t =>
    if (a.weak cat).equiv cat (b.weak cat) then .ok (a.weak cat)
    else if a.isRigid cat || b.isRigid cat then .error (.noCommonType a b)
    else
      match _h : cat.kind s, cat.kind t with
      | .array x, .array y =>
        -- arrays of values are not covariant, so the array class is all they share
        if cat.isBoxable x || cat.isBoxable y then .ok (declared .arrayBase)
        else do
          let element ← merge (declared x) (declared y)
          match element.ty with
          | some e => .ok (declared (.array e))
          | none => .error (.noCommonType a b)
      | k, l =>
        if k.isInterface || l.isInterface then .ok (declared (cat.sharedInterface s t))
        else
          match cat.sharedBase? s t with
          | some u => .ok (boxedOf cat u)
          | none => .error (.noCommonType a b)
termination_by (a.ty.map Ty.rank).getD 0
decreasing_by
  simpa [declared, _ha] using Catalog.rank_array_lt _h

end Slot

namespace Stack

variable (cat : Catalog)

/-- Merge two stacks of one height slot by slot, deepest slot first. -/
def mergeSlots : Stack → Stack → Except Fault Stack
  | a :: rest, b :: rest' => do
    let below ← mergeSlots rest rest'
    let top ← a.merge cat b
    return top :: below
  | _, _ => .ok []

/-- The stack where two paths meet; they have to arrive with stacks of one height. -/
def merge (a b : Stack) : Except Fault Stack :=
  if a.length = b.length then mergeSlots cat a b else .error (.heights a.length b.length)

end Stack

end StackTyping
