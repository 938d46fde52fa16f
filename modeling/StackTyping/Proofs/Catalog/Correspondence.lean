import Mathlib.Data.List.Find
import StackTyping.Proofs.Catalog.Equiv
import StackTyping.Proofs.Pointwise
import StackTyping.Slot.Merge

/-!
Types that correspond to each other.

The rules learn about types by asking for their kinds, texts, bases and interfaces, and by comparing
two of them. If related types of two catalogs, or of one, answer all these questions alike, then
whatever is built on the answers comes out alike as well. Three such relations matter: equality,
the equivalence of types in a catalog, and equality of the types that a catalog knows, between it
and a later one.
-/

namespace StackTyping

variable {T : Ty → Ty → Prop} {s s' t t' : Ty}

namespace Kind

/-- The same kind, with related elements. -/
inductive Related (T : Ty → Ty → Prop) : Kind Ty → Kind Ty → Prop where
  | plain {k : Kind Ty} (h : k.element? = none) : Related T k k
  | array {s t : Ty} (h : T s t) : Related T (.array s) (.array t)
  | pointer {s t : Ty} (h : T s t) : Related T (.pointer s) (.pointer t)

lemma related_self {k : Kind Ty} (h : ∀ t ∈ k.element?, T t t) : k.Related T k := by
  cases k with
  | array t => exact .array (h t rfl)
  | pointer t => exact .pointer (h t rfl)
  | _ => exact .plain rfl

namespace Related

variable {k l : Kind Ty}

/-- A question that does not look at the element. -/
lemma congr {β : Type} (f : Kind Ty → β) (harray : ∀ x y, f (.array x) = f (.array y))
    (hpointer : ∀ x y, f (.pointer x) = f (.pointer y)) (h : k.Related T l) : f k = f l := by
  cases h with
  | plain _ => rfl
  | array _ => exact harray _ _
  | pointer _ => exact hpointer _ _

lemma element? (h : k.Related T l) : Option.Rel T k.element? l.element? := by
  cases h with
  | plain h =>
    rw [h]
    exact .none
  | array hst => exact .some hst
  | pointer hst => exact .some hst

end Related

end Kind

namespace Catalog

variable {cat cat' : Catalog}

/-! ### Kinds -/

/-- Related types are of the same kind, with related elements. -/
structure SameKinds (T : Ty → Ty → Prop) (cat cat' : Catalog) : Prop where
  kind : ∀ s t, T s t → (cat.kind s).Related T (cat'.kind t)

lemma sameKinds_equiv (cat : Catalog) : SameKinds (fun s t => cat.equiv s t) cat cat := by
  refine ⟨fun s t hst => ?_⟩
  rcases equiv_cases hst with rfl | ⟨x, y, hs, ht, hxy⟩ | ⟨x, y, hs, ht, hxy⟩
  · exact Kind.related_self fun _ _ => equiv_refl _
  · rw [hs, ht]
    exact .array hxy
  · rw [hs, ht]
    exact .pointer hxy

namespace SameKinds

variable (h : SameKinds T cat cat') (hst : T s t)
include h hst

lemma isBoxable : cat.isBoxable s = cat'.isBoxable t :=
  (h.kind s t hst).congr Kind.isBoxable (fun _ _ => rfl) fun _ _ => rfl

lemma isInterface : cat.isInterface s = cat'.isInterface t :=
  (h.kind s t hst).congr Kind.isInterface (fun _ _ => rfl) fun _ _ => rfl

lemma isArray : cat.isArray s = cat'.isArray t :=
  (h.kind s t hst).congr Kind.isArray (fun _ _ => rfl) fun _ _ => rfl

lemma isPointer : cat.isPointer s = cat'.isPointer t :=
  (h.kind s t hst).congr Kind.isPointer (fun _ _ => rfl) fun _ _ => rfl

lemma isVoid : cat.isVoid s = cat'.isVoid t :=
  (h.kind s t hst).congr Kind.isVoid (fun _ _ => rfl) fun _ _ => rfl

lemma primitive? : cat.primitive? s = cat'.primitive? t :=
  (h.kind s t hst).congr Kind.primitive? (fun _ _ => rfl) fun _ _ => rfl

lemma isExact : cat.isExact s = cat'.isExact t := by
  rw [Catalog.isExact, Catalog.isExact, h.isPointer hst, h.isVoid hst]

lemma element? : Option.Rel T (cat.element? s) (cat'.element? t) := (h.kind s t hst).element?

lemma array {x y : Ty} (hs : cat.kind s = .array x) (ht : cat'.kind t = .array y) : T x y := by
  have hkind := h.kind s t hst
  rw [hs, ht] at hkind
  cases hkind with
  | plain hnone => cases hnone
  | array hxy => exact hxy

end SameKinds

/-! ### All questions -/

/-- Related types answer every question alike. -/
structure Corresponds (T : Ty → Ty → Prop) (cat cat' : Catalog) : Prop
    extends SameKinds T cat cat' where
  core : ∀ i < 23, T (.entry i) (.entry i)
  array_of : ∀ s t, T s t → T (.array s) (.array t)
  pointer_of : ∀ s t, T s t → T (.pointer s) (.pointer t)
  nameOf : ∀ s t, T s t → cat.nameOf s = cat'.nameOf t
  isTop : ∀ s t, T s t → cat.isTop s = cat'.isTop t
  baseChain : ∀ s t, T s t → List.Forall₂ T (cat.baseChain s) (cat'.baseChain t)
  interfaces : ∀ s t, T s t → cat.interfaces s = cat'.interfaces t
  interface : ∀ s t, T s t → ∀ i ∈ cat.interfaces s, T (.entry i) (.entry i)
  equiv : ∀ s s' t t', T s s' → T t t' → cat.equiv s t = cat'.equiv s' t'
  subtype : ∀ s s' t t', T s s' → T t t' → cat.subtype s t = cat'.subtype s' t'

lemma corresponds_eq (cat : Catalog) : Corresponds Eq cat cat where
  kind s t hst := by
    subst hst
    exact Kind.related_self fun _ _ => rfl
  core _ _ := rfl
  array_of _ _ hst := congrArg _ hst
  pointer_of _ _ hst := congrArg _ hst
  nameOf _ _ hst := congrArg _ hst
  isTop _ _ hst := congrArg _ hst
  baseChain s t hst := by
    subst hst
    exact List.forall₂_same.2 fun _ _ => rfl
  interfaces _ _ hst := congrArg _ hst
  interface _ _ _ _ _ := rfl
  equiv _ _ _ _ hs ht := by rw [hs, ht]
  subtype _ _ _ _ hs ht := by rw [hs, ht]

namespace Corresponds

variable (h : Corresponds T cat cat')
include h

lemma object : T .object .object := h.core _ (by decide)

lemma ofPrimitive (p : Primitive) : T (.ofPrimitive p) (.ofPrimitive p) :=
  h.core _ (by cases p <;> decide)

/-! ### Where two types meet -/

lemma find?_interface (hs : T s s') (ht : T t t') :
    ((cat.interfaces s).find? fun i =>
        (cat.interfaces t).any fun j => cat.equiv (.entry i) (.entry j)) =
      (cat'.interfaces s').find? fun i =>
        (cat'.interfaces t').any fun j => cat'.equiv (.entry i) (.entry j) := by
  rw [← h.interfaces s s' hs, ← h.interfaces t t' ht]
  refine List.find?_congr fun i hi => ?_
  rw [Bool.eq_iff_iff, List.any_eq_true, List.any_eq_true]
  have hequiv : ∀ j ∈ cat.interfaces t,
      cat.equiv (.entry i) (.entry j) = cat'.equiv (.entry i) (.entry j) :=
    fun j hj => h.equiv _ _ _ _ (h.interface s s' hs i hi) (h.interface t t' ht j hj)
  constructor
  · rintro ⟨j, hj, hij⟩
    exact ⟨j, hj, hequiv j hj ▸ hij⟩
  · rintro ⟨j, hj, hij⟩
    exact ⟨j, hj, (hequiv j hj).symm ▸ hij⟩

lemma sharedInterface (hs : T s s') (ht : T t t') :
    T (cat.sharedInterface s t) (cat'.sharedInterface s' t') := by
  obtain ⟨u, u', v, v', hu, hv, hleft, hright⟩ : ∃ u u' v v', T u u' ∧ T v v' ∧
      (if cat.nameOf t < cat.nameOf s then (t, s) else (s, t)) = (u, v) ∧
      (if cat'.nameOf t' < cat'.nameOf s' then (t', s') else (s', t')) = (u', v') := by
    rw [← h.nameOf s s' hs, ← h.nameOf t t' ht]
    split
    · exact ⟨t, t', s, s', ht, hs, rfl, rfl⟩
    · exact ⟨s, s', t, t', hs, ht, rfl, rfl⟩
  unfold Catalog.sharedInterface
  rw [hleft, hright]
  dsimp only
  rw [← h.find?_interface hu hv]
  split
  · rename_i i hi
    exact h.interface u u' hu i (List.mem_of_find?_eq_some hi)
  · exact h.object

/-- The walk down two chains stops at one place. -/
lemma takeWhile_zip {l l' m m' : List Ty} (hl : List.Forall₂ T l l') (hm : List.Forall₂ T m m') :
    List.Forall₂ (fun p q : Ty × Ty => T p.1 q.1)
      ((l.zip m).takeWhile fun p => cat.equiv p.1 p.2)
      ((l'.zip m').takeWhile fun p => cat'.equiv p.1 p.2) := by
  induction hl generalizing m m' with
  | nil => exact .nil
  | cons hab _ ih =>
    cases hm with
    | nil => exact .nil
    | cons hcd hm =>
      simp only [List.zip_cons_cons, List.takeWhile_cons, h.equiv _ _ _ _ hab hcd]
      split
      · exact .cons hab (ih hm)
      · exact .nil

lemma sharedBase? (hs : T s s') (ht : T t t') :
    Option.Rel T (cat.sharedBase? s t) (cat'.sharedBase? s' t') := by
  have hchain := h.baseChain s s' hs
  have htop : (cat.baseChain s).head?.any cat.isTop = (cat'.baseChain s').head?.any cat'.isTop := by
    rw [List.head?_eq_getElem?, List.head?_eq_getElem?]
    exact any_eq_of_rel (getElem?_rel hchain 0) h.isTop
  unfold Catalog.sharedBase?
  dsimp only
  rw [htop]
  split
  · exact rel_map (getLast?_rel (h.takeWhile_zip hchain (h.baseChain t t' ht))) fun _ _ huv => huv
  · exact .none

end Corresponds

end Catalog

end StackTyping
