import StackTyping.Catalog.Core

/-!
Equivalence of types, their base types and interfaces, and subtyping.

Two types are equivalent when they agree after every array and pointer entry has been replaced
by the term it stands for. Subtyping follows base links, and interface links too when the
supertype is an interface; arrays of references are covariant.
-/

namespace StackTyping.Catalog

variable (cat : Catalog)

/-! ### Equivalence -/

/-- The type with its array and pointer entries replaced by terms. -/
def expand (t : Ty) : Ty :=
  match _h : cat.kind t with
  | .array e => .array (expand e)
  | .pointer e => .pointer (expand e)
  | _ => t
termination_by t.rank
decreasing_by
  · exact rank_array_lt _h
  · exact rank_pointer_lt _h

/-- The same type, however often its arrays and pointers were built. -/
def equiv (s t : Ty) : Bool := cat.expand s == cat.expand t

/-! ### Base types and interfaces -/

/-- The chain of base types, from the top of the hierarchy down to the type itself. -/
def baseChain (t : Ty) : List Ty :=
  match _h : cat.base? t with
  | some b => baseChain b ++ [t]
  | none => [t]
termination_by t.rank
decreasing_by exact rank_base?_lt _h

/-- The type itself if it is an interface, then every interface it has by declaration, through
an interface or through a base type, in the order of a depth-first walk. -/
def interfaces (t : Ty) : List EntryId :=
  let self := match t with
    | .entry i => if cat.isInterface t then [i] else []
    | _ => []
  cat.implements.visit self ((cat.baseChain t).reverse.flatMap cat.declaredInterfaces)

/-- All links from an entry to its base type and to its interfaces. -/
def superLinks : Links :=
  (List.range cat.entries.size).filterMap (fun i => (cat.baseId? i).map (i, ·)) ++ cat.implements

/-- The entries that base and interface links lead to from a type, itself included. -/
def supertypes (t : Ty) : List EntryId :=
  cat.superLinks.visit [] <| match t with
    | .entry i => [i]
    | .array _ => [EntryId.array]
    | .pointer _ => []

/-- The type has a base type or interface equivalent to `t`. Interfaces are looked at only when
`t` is one. -/
def derives (s t : Ty) : Bool :=
  if cat.isInterface t then (cat.supertypes s).any fun i => cat.equiv (.entry i) t
  else (cat.baseChain s).any fun a => cat.equiv a t

/-! ### Subtyping -/

/-- Pointers and void only match themselves. -/
def isExact (t : Ty) : Bool := cat.isPointer t || cat.isVoid t

/-- Elements of this type are stored as references, which is what makes arrays covariant. -/
def isReferenceElement (t : Ty) : Bool := !cat.isBoxable t && !cat.isExact t

/-- Subtyping between types, leaving aside whether their values are boxed. The classes of all
enumerations and of all arrays, and the top class, are supertypes by rule. -/
def subtype (s t : Ty) : Bool :=
  cat.equiv s t ||
    match _h : cat.kind s, cat.kind t with
    | .array x, .array y =>
      cat.isReferenceElement x && cat.isReferenceElement y && subtype x y
    | _, _ =>
      !cat.isExact s && !cat.isExact t &&
        (t == .enumBase && cat.isEnum s || t == .arrayBase && cat.isArray s || cat.isTop t
          || cat.derives s t)
termination_by s.rank
decreasing_by exact rank_array_lt _h

end StackTyping.Catalog
