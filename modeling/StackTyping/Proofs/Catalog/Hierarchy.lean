import StackTyping.Proofs.Catalog.Equiv
import StackTyping.Proofs.Catalog.Grown
import StackTyping.Proofs.Links

/-!
The hierarchy of types as a graph.

A type is linked to its base and to the interfaces it declares. The chain of base types, the
collected interfaces and the search for a supertype are three ways to walk these links; each is
described here by what it reaches. In a grown catalog an interface leads to interfaces only, so a
class can be looked for along base links alone.
-/

namespace StackTyping.Catalog

variable {cat : Catalog} {s t u : Ty} {i j : EntryId}

/-- The type leads to another as its base or as an interface it declares. -/
def Link (cat : Catalog) (s t : Ty) : Prop :=
  cat.base? s = some t ∨ ∃ j ∈ cat.declaredInterfaces s, t = .entry j

/-- The type leads to another in any number of steps. -/
def Inherits (cat : Catalog) (s t : Ty) : Prop := Relation.ReflTransGen cat.Link s t

/-- The type leads to another along base links alone. -/
def Extends (cat : Catalog) (s t : Ty) : Prop :=
  Relation.ReflTransGen (fun a b => cat.base? a = some b) s t

lemma Inherits.trans (h : cat.Inherits s t) (h' : cat.Inherits t u) : cat.Inherits s u :=
  Relation.ReflTransGen.trans h h'

lemma Extends.inherits (h : cat.Extends s t) : cat.Inherits s t := by
  induction h with
  | refl => exact .refl
  | tail _ hb ih => exact .tail ih (Or.inl hb)

lemma Link.exists_entry (h : cat.Link s t) : ∃ j, t = .entry j := by
  rcases h with hb | ⟨j, -, rfl⟩
  · cases s with
    | entry i =>
      obtain ⟨j, -, rfl⟩ := Option.map_eq_some_iff.1 hb
      exact ⟨j, rfl⟩
    | array e => exact ⟨EntryId.array, (Option.some.inj hb).symm⟩
    | pointer e => cases hb
  · exact ⟨j, rfl⟩

/-! ### Walking the links -/

lemma mem_superLinks : (i, j) ∈ cat.superLinks ↔ cat.Link (.entry i) (.entry j) := by
  simp only [superLinks, List.mem_append, List.mem_filterMap, List.mem_range,
    Option.map_eq_some_iff, Prod.mk.injEq, Link, base?, declaredInterfaces, Links.mem_targets,
    Ty.entry.injEq]
  constructor
  · rintro (⟨k, -, m, hm, rfl, rfl⟩ | hij)
    · exact Or.inl ⟨m, hm, rfl⟩
    · exact Or.inr ⟨j, hij, rfl⟩
  · rintro (⟨m, hm, rfl⟩ | ⟨k, hk, rfl⟩)
    · exact Or.inl ⟨i, lt_size_of_baseId? hm, m, hm, rfl, rfl⟩
    · exact Or.inr hk

lemma reaches_superLinks : cat.superLinks.Reaches i j ↔ cat.Inherits (.entry i) (.entry j) := by
  constructor
  · intro h
    induction h with
    | refl => exact .refl
    | tail _ hlast ih => exact .tail ih (mem_superLinks.1 hlast)
  · intro h
    generalize ht : Ty.entry j = t at h
    induction h generalizing j with
    | refl =>
      cases ht
      exact .refl
    | @tail u _ hu hlast ih =>
      subst ht
      -- the last link starts at an entry: at `i` itself or where the link before it leads
      obtain ⟨k, rfl⟩ : ∃ k, u = .entry k := by
        rcases Relation.ReflTransGen.cases_tail hu with rfl | ⟨_, -, hlink⟩
        · exact ⟨i, rfl⟩
        · exact hlink.exists_entry
      exact .tail (ih rfl) (mem_superLinks.2 hlast)

lemma mem_supertypes : i ∈ cat.supertypes s ↔ cat.Inherits s (.entry i) := by
  unfold supertypes
  rw [Links.mem_visit_nil]
  cases s with
  | entry k => simpa using reaches_superLinks
  | array e =>
    simp only [List.mem_singleton, exists_eq_left, reaches_superLinks]
    refine ⟨fun h => .head (Or.inl rfl) h, fun h => ?_⟩
    rcases Relation.ReflTransGen.cases_head h with h | ⟨b, hb | ⟨_, hj, -⟩, hrest⟩
    · cases h
    · cases hb
      exact hrest
    · cases hj
  | pointer e =>
    constructor
    · rintro ⟨_, hk, -⟩
      cases hk
    intro h
    rcases Relation.ReflTransGen.cases_head h with h | ⟨b, hb | ⟨_, hj, -⟩, -⟩
    · cases h
    · cases hb
    · cases hj

lemma baseChain_of_none (h : cat.base? s = none) : cat.baseChain s = [s] := by
  rw [baseChain]
  split
  · rename_i b hb
    rw [h] at hb
    cases hb
  · rfl

lemma baseChain_of_some {b : Ty} (h : cat.base? s = some b) :
    cat.baseChain s = cat.baseChain b ++ [s] := by
  rw [baseChain]
  split
  · rename_i c hc
    rw [h] at hc
    cases hc
    rfl
  · rename_i hnone
    rw [h] at hnone
    cases hnone

lemma mem_baseChain : t ∈ cat.baseChain s ↔ cat.Extends s t := by
  fun_induction baseChain cat s with
  | case1 s b hb ih =>
    rw [List.mem_append, ih, List.mem_singleton]
    constructor
    · rintro (h | rfl)
      · exact .head hb h
      · exact .refl
    · intro h
      rcases Relation.ReflTransGen.cases_head h with rfl | ⟨c, hc, hrest⟩
      · exact Or.inr rfl
      · rw [hb] at hc
        cases hc
        exact Or.inl hrest
  | case2 s hb =>
    rw [List.mem_singleton]
    constructor
    · rintro rfl
      exact .refl
    · intro h
      rcases Relation.ReflTransGen.cases_head h with rfl | ⟨c, hc, -⟩
      · rfl
      · rw [hb] at hc
        cases hc

lemma inherits_of_reaches (h : cat.implements.Reaches i j) :
    cat.Inherits (.entry i) (.entry j) := by
  induction h with
  | refl => exact .refl
  | tail _ hlast ih => exact .tail ih (Or.inr ⟨_, Links.mem_targets.2 hlast, rfl⟩)

/-- **The collected interfaces** are the type itself, if it is one, and what interface links lead to
from an interface that one of the base types declares. -/
lemma mem_interfaces : j ∈ cat.interfaces t ↔
    (t = .entry j ∧ cat.isInterface t) ∨
      ∃ a i, cat.Extends t a ∧ i ∈ cat.declaredInterfaces a ∧ cat.implements.Reaches i j := by
  unfold interfaces
  extract_lets self
  have hself : ∀ k, k ∈ self ↔ t = .entry k ∧ cat.isInterface t := by
    intro k
    cases t with
    | entry m =>
      by_cases hm : cat.isInterface (.entry m)
      · simp [self, hm, eq_comm]
      · simp [self, hm]
    | array e => simp [self]
    | pointer e => simp [self]
  have htodo : ∀ i, i ∈ (cat.baseChain t).reverse.flatMap cat.declaredInterfaces ↔
      ∃ a, cat.Extends t a ∧ i ∈ cat.declaredInterfaces a := by
    intro i
    simp only [List.mem_flatMap, List.mem_reverse, mem_baseChain]
  -- the type is known at the start, and its own interfaces are still to be entered
  have hexplored : cat.implements.Explored self
      ((cat.baseChain t).reverse.flatMap cat.declaredInterfaces) := by
    intro a ha b hab
    obtain ⟨rfl, -⟩ := (hself a).1 ha
    exact Or.inr ((htodo b).2 ⟨_, .refl, Links.mem_targets.2 hab⟩)
  rw [Links.mem_visit_iff hexplored, hself]
  constructor
  · rintro (hj | ⟨i, hi, hij⟩)
    · exact Or.inl hj
    · obtain ⟨a, ha, hi⟩ := (htodo i).1 hi
      exact Or.inr ⟨a, i, ha, hi, hij⟩
  · rintro (hj | ⟨a, i, ha, hi, hij⟩)
    · exact Or.inl hj
    · exact Or.inr ⟨i, (htodo i).2 ⟨a, ha, hi⟩, hij⟩

lemma inherits_of_mem_interfaces (h : j ∈ cat.interfaces t) : cat.Inherits t (.entry j) := by
  rcases mem_interfaces.1 h with ⟨rfl, -⟩ | ⟨a, i, hta, hi, hij⟩
  · exact .refl
  · exact hta.inherits.trans (.head (Or.inr ⟨i, hi, rfl⟩) (inherits_of_reaches hij))

/-! ### Grown catalogs -/

namespace Lawful

variable (h : Lawful cat)
include h

lemma kind_of_declared (hj : j ∈ cat.declaredInterfaces s) :
    cat.kind (.entry j) = .interface := by
  cases s with
  | entry i => exact h.implements_interface i j (Links.mem_targets.1 hj)
  | array e => cases hj
  | pointer e => cases hj

lemma kind_of_link (hl : cat.Link s t) : cat.kind t = .classType ∨ cat.kind t = .interface := by
  rcases hl with hb | ⟨j, hj, rfl⟩
  · exact Or.inl (h.kind_of_base? hb)
  · exact Or.inr (h.kind_of_declared hj)

lemma eq_or_element?_of_inherits (hi : cat.Inherits s t) : s = t ∨ cat.element? t = none := by
  rcases Relation.ReflTransGen.cases_tail hi with hst | ⟨_, -, hlast⟩
  · exact Or.inl hst.symm
  · rcases h.kind_of_link hlast with hk | hk
    · exact Or.inr (by rw [element?, hk]; rfl)
    · exact Or.inr (by rw [element?, hk]; rfl)

lemma kind_of_inherits_interface (hi : cat.Inherits s t) (hs : cat.kind s = .interface) :
    cat.kind t = .interface := by
  induction hi with
  | refl => exact hs
  | tail _ hlast ih =>
    rcases hlast with hb | ⟨j, hj, rfl⟩
    · rw [h.base?_interface ih] at hb
      cases hb
    · exact h.kind_of_declared hj

lemma kind_of_mem_interfaces (hj : j ∈ cat.interfaces t) : cat.kind (.entry j) = .interface := by
  rcases mem_interfaces.1 hj with ⟨rfl, hint⟩ | ⟨a, i, -, hi, hij⟩
  · exact isInterface_iff.1 hint
  · exact h.kind_of_inherits_interface (inherits_of_reaches hij) (h.kind_of_declared hi)

/-- A type that is no interface is inherited along base links alone. -/
lemma extends_of_inherits (hi : cat.Inherits s t) (ht : cat.kind t ≠ .interface) :
    cat.Extends s t := by
  induction hi using Relation.ReflTransGen.head_induction_on with
  | refl => exact .refl
  | head hlink hrest ih =>
    rcases hlink with hb | ⟨j, hj, rfl⟩
    · exact .head hb ih
    · exact absurd (h.kind_of_inherits_interface hrest (h.kind_of_declared hj)) ht

/-- **Skipping interfaces is harmless**: whichever links are followed, the answer is whether the
type is equivalent to the other or inherits it. -/
lemma derives_iff : cat.derives s t ↔ cat.equiv s t ∨ cat.Inherits s t := by
  unfold derives
  split
  · rename_i ht
    have hk := isInterface_iff.1 ht
    have he : cat.element? t = none := by rw [element?, hk]; rfl
    rw [List.any_eq_true]
    constructor
    · rintro ⟨i, hi, hit⟩
      obtain rfl := eq_of_equiv hit he
      exact Or.inr (mem_supertypes.1 hi)
    · intro hst
      have hinh : cat.Inherits s t := by
        rcases hst with heq | hinh
        · obtain rfl := eq_of_equiv heq he
          exact .refl
        · exact hinh
      cases t with
      | entry i => exact ⟨i, mem_supertypes.2 hinh, equiv_refl _⟩
      | array e => cases hk
      | pointer e => cases hk
  -- interfaces are left out of the search; a path to what is none goes along bases anyway
  · rename_i ht
    have hk : cat.kind t ≠ .interface := fun hk => ht (isInterface_iff.2 hk)
    rw [List.any_eq_true]
    constructor
    · rintro ⟨a, ha, hat⟩
      have hext := mem_baseChain.1 ha
      rcases h.eq_or_element?_of_inherits hext.inherits with rfl | he
      · exact Or.inl hat
      · obtain rfl := eq_of_equiv (equiv_symm hat) he
        exact Or.inr hext.inherits
    · rintro (heq | hinh)
      · exact ⟨s, mem_baseChain.2 .refl, heq⟩
      · exact ⟨t, mem_baseChain.2 (h.extends_of_inherits hinh hk), equiv_refl _⟩

end Lawful

end StackTyping.Catalog
