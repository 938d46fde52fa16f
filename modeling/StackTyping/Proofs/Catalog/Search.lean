import StackTyping.Proofs.Catalog.Subtype

/-!
The searches through a catalog agree with the rules they stand for.

Subtyping is first described by rules that mention no search: a type is below the equivalent ones,
an array of references is below the arrays over what its element is below, and any other type is
below the top class and what its links lead to. The subtype test decides these rules, although it leaves
interfaces out of its search for a class.

The collected interfaces of a type come from another walk, which goes through the base types one by
one and never enters an interface twice. A path of links that ends at an interface consists of base
links first and interface links after them, since interfaces have no base. So this walk finds the
interfaces that the type is below, also where interfaces extend each other in a circle.
-/

namespace StackTyping.Catalog

variable {cat : Catalog} {s t : Ty} {i j : EntryId}

/-! ### Subtyping by rules -/

/-- The rules of subtyping. -/
inductive Below (cat : Catalog) : Ty → Ty → Prop where
  /-- A type is below the equivalent ones. -/
  | equiv {s t : Ty} (h : cat.equiv s t) : Below cat s t
  /-- Arrays compare by their elements, if these are references. -/
  | arrays {s t x y : Ty} (hs : cat.kind s = .array x) (ht : cat.kind t = .array y)
      (hx : cat.isReferenceElement x) (hy : cat.isReferenceElement y) (h : Below cat x y) :
      Below cat s t
  /-- Other types are below the top class and below what their links lead to, unless one of the two
  is a pointer or void. -/
  | links {s t : Ty} (hs : cat.isExact s = false) (ht : cat.isExact t = false)
      (hst : ¬(cat.isArray s ∧ cat.isArray t)) (h : t = .object ∨ cat.Inherits s t) : Below cat s t

namespace Lawful

variable (h : Lawful cat)
include h

lemma subtype_of_below (hst : cat.Below s t) : cat.subtype s t := by
  induction hst with
  | equiv heq => exact subtype_of_equiv heq
  | arrays hs ht hx hy _ ih => exact (subtype_array_iff hs ht).2 (Or.inr ⟨hx, hy, ih⟩)
  | links hs ht hna hup => exact (h.subtype_iff hna).2 (Or.inr ⟨hs, ht, hup⟩)

lemma below_of_subtype {s t : Ty} (hst : cat.subtype s t) : cat.Below s t := by
  by_cases ha : cat.isArray s ∧ cat.isArray t
  · obtain ⟨x, hx⟩ := isArray_iff.1 ha.1
    obtain ⟨y, hy⟩ := isArray_iff.1 ha.2
    rcases (subtype_array_iff hx hy).1 hst with heq | ⟨hrx, hry, hxy⟩
    · exact .equiv ((equiv_array_iff hx hy).2 heq)
    · exact .arrays hx hy hrx hry (below_of_subtype hxy)
  · rcases (h.subtype_iff ha).1 hst with heq | ⟨hs, ht, hup⟩
    · exact .equiv heq
    · exact .links hs ht ha hup
termination_by s.rank
decreasing_by exact rank_array_lt hx

/-- Where the search leaves interfaces out, it would not have found anything there. -/
lemma derives_eq_any : cat.derives s t =
    (cat.equiv s t || (cat.supertypes s).any fun i => cat.equiv (.entry i) t) := by
  rw [Bool.eq_iff_iff, h.derives_iff, Bool.or_eq_true, List.any_eq_true]
  constructor
  · rintro (heq | hinh)
    · exact Or.inl heq
    · rcases Relation.ReflTransGen.cases_tail hinh with rfl | ⟨_, -, hlast⟩
      · exact Or.inl (equiv_refl _)
      · obtain ⟨i, rfl⟩ := hlast.exists_entry
        exact Or.inr ⟨i, mem_supertypes.2 hinh, equiv_refl _⟩
  · rintro (heq | ⟨i, hi, hit⟩)
    · exact Or.inl heq
    · have hinh := mem_supertypes.1 hi
      rcases h.eq_or_element?_of_inherits hinh with rfl | he
      · exact Or.inl hit
      · obtain rfl := eq_of_equiv (equiv_symm hit) he
        exact Or.inr hinh

end Lawful

/-- **The subtype test decides the rules of subtyping**, for all types of a grown catalog. Its
search for a supertype gives the answer of a search along all links, whichever it leaves out. -/
theorem subtype_iff_below {P : EntryId → Prop} (hcat : Grown P cat) (s t : Ty) :
    (cat.subtype s t ↔ cat.Below s t) ∧
      cat.derives s t =
        (cat.equiv s t || (cat.supertypes s).any fun i => cat.equiv (.entry i) t) :=
  ⟨⟨hcat.lawful.below_of_subtype, hcat.lawful.subtype_of_below⟩, hcat.lawful.derives_eq_any⟩

/-- Two interfaces, a class and a class that extends it. -/
def feedTypes : Catalog :=
  ((((core.declareInterface ⟨"N.Feed"⟩).2.declareInterface ⟨"N.Source"⟩).2.declareClass
    ⟨"N.Disk"⟩ EntryId.object).2.declareClass ⟨"N.Drive"⟩ 25).2

/-- The two interfaces extend each other, and the first class implements the first of them. -/
def feedCatalog : Catalog := ((feedTypes.implement 23 24).implement 24 23).implement 25 23

lemma grown_feedCatalog : Grown (fun _ => True) feedCatalog := by
  have htypes : Grown (fun _ => True) feedTypes := by
    refine (((Grown.core.apply (.declareInterface ⟨"N.Feed"⟩) ?_ ?_).apply
      (.declareInterface ⟨"N.Source"⟩) ?_ ?_).apply (.declareClass ⟨"N.Disk"⟩ EntryId.object)
        ?_ ?_).apply (.declareClass ⟨"N.Drive"⟩ 25) ?_ ?_ <;> decide +kernel
  refine ((htypes.apply (.implement 23 24) ?_ ?_).apply (.implement 24 23) ?_ ?_).apply
    (.implement 25 23) ?_ ?_ <;> decide +kernel

/-- Arrays of the second class are below arrays of the second interface. No interface is below a
class but the top one. A search along all links finds the first class from the second too. -/
theorem subtype_iff_below_feed :
    feedCatalog.Below (.array (.entry 26)) (.array (.entry 24)) ∧
      feedCatalog.Below (.entry 24) .object ∧ ¬feedCatalog.Below (.entry 24) (.entry 25) ∧
      (feedCatalog.equiv (.entry 26) (.entry 25) ||
        (feedCatalog.supertypes (.entry 26)).any fun i =>
          feedCatalog.equiv (.entry i) (.entry 25)) := by
  have hiff := fun s t => (subtype_iff_below grown_feedCatalog s t).1
  have hclass : ¬feedCatalog.subtype (.entry 24) (.entry 25) := by decide +kernel
  have hderives : feedCatalog.derives (.entry 26) (.entry 25) := by decide +kernel
  rw [(subtype_iff_below grown_feedCatalog _ _).2] at hderives
  refine ⟨(hiff _ _).1 (by decide +kernel), (hiff _ _).1 (by decide +kernel), fun hbelow => ?_,
    hderives⟩
  exact hclass ((hiff _ _).2 hbelow)

/-! ### Collected interfaces -/

namespace Lawful

variable (h : Lawful cat)
include h

lemma reaches_of_inherits (hij : cat.Inherits (.entry i) t)
    (hi : cat.kind (.entry i) = .interface) : ∃ j, t = .entry j ∧ cat.implements.Reaches i j := by
  induction hij with
  | refl => exact ⟨i, rfl, .refl⟩
  | tail hrest hlast ih =>
    obtain ⟨k, rfl, hreach⟩ := ih
    have hk := h.kind_of_inherits_interface hrest hi
    rcases hlast with hb | ⟨j, hj, rfl⟩
    · rw [h.base?_interface hk] at hb
      cases hb
    · exact ⟨j, rfl, hreach.tail (Links.mem_targets.1 hj)⟩

/-- A path of links to an interface follows base links first and interface links after them. -/
lemma inherits_interface_cases (htj : cat.Inherits t (.entry j))
    (hj : cat.kind (.entry j) = .interface) :
    t = .entry j ∨
      ∃ a i, cat.Extends t a ∧ i ∈ cat.declaredInterfaces a ∧ cat.implements.Reaches i j := by
  induction htj using Relation.ReflTransGen.head_induction_on with
  | refl => exact Or.inl rfl
  | head hlink hrest ih =>
    rcases hlink with hb | ⟨i, hi, rfl⟩
    · rcases ih with rfl | ⟨a, i, hext, hi, hreach⟩
      · -- an interface is no base
        have hk := h.kind_of_base? hb
        rw [hj] at hk
        cases hk
      · exact Or.inr ⟨a, i, .head hb hext, hi, hreach⟩
    · obtain ⟨k, hk, hreach⟩ := h.reaches_of_inherits hrest (h.kind_of_declared hi)
      cases hk
      exact Or.inr ⟨_, i, .refl, hi, hreach⟩

/-- **The collected interfaces are the inherited ones.** -/
lemma mem_interfaces_iff (hj : cat.kind (.entry j) = .interface) :
    j ∈ cat.interfaces t ↔ cat.Inherits t (.entry j) := by
  refine ⟨inherits_of_mem_interfaces, fun hinh => mem_interfaces.2 ?_⟩
  rcases h.inherits_interface_cases hinh hj with rfl | hdeclared
  · exact Or.inl ⟨rfl, isInterface_iff.2 hj⟩
  · exact Or.inr hdeclared

lemma eq_of_inherits_pointer {x : Ty} (ht : cat.kind t = .pointer x) (hts : cat.Inherits t s) :
    s = t := by
  rcases Relation.ReflTransGen.cases_head hts with hst | ⟨b, hb | ⟨i, hi, -⟩, -⟩
  · exact hst.symm
  · rw [h.base?_pointer ht] at hb
    cases hb
  · rw [h.declaredInterfaces_eq_nil (by rw [element?, ht]; rfl)] at hi
    cases hi

lemma subtype_interface_iff (ht : cat.isVoid t = false) (hj : cat.kind (.entry j) = .interface) :
    cat.subtype t (.entry j) ↔ cat.Inherits t (.entry j) := by
  have hna : ¬(cat.isArray t ∧ cat.isArray (.entry j)) := by
    rintro ⟨-, ha⟩
    rw [isArray, hj] at ha
    cases ha
  rw [h.subtype_iff hna]
  constructor
  · rintro (heq | ⟨-, -, hobj | hinh⟩)
    · obtain rfl := eq_of_equiv heq (by rw [element?, hj]; rfl)
      exact .refl
    · rw [hobj, h.kind_object] at hj
      cases hj
    · exact hinh
  · intro hinh
    refine Or.inr ⟨?_, (isExact_of_kind (Or.inr hj)).1, Or.inr hinh⟩
    rw [isExact, ht, Bool.or_false]
    refine Bool.eq_false_iff.2 fun hp => ?_
    obtain ⟨x, hx⟩ := isPointer_iff.1 hp
    rw [h.eq_of_inherits_pointer hx hinh, hx] at hj
    cases hj

end Lawful

lemma nodup_interfaces (t : Ty) : (cat.interfaces t).Nodup := by
  refine Links.nodup_visit ?_
  cases t with
  | entry i =>
    dsimp only
    split
    · exact List.nodup_cons.2 ⟨List.not_mem_nil, List.nodup_nil⟩
    · exact List.nodup_nil
  | array e => exact List.nodup_nil
  | pointer e => exact List.nodup_nil

/-- **The collected interfaces of a type are the interfaces it is a subtype of**, each of them once,
unless the type is void. -/
theorem mem_interfaces_iff_subtype {P : EntryId → Prop} (hcat : Grown P cat)
    (ht : cat.isVoid t = false) :
    (cat.interfaces t).Nodup ∧ (∀ j ∈ cat.interfaces t, cat.isInterface (.entry j)) ∧
      ∀ j, cat.isInterface (.entry j) → (j ∈ cat.interfaces t ↔ cat.subtype t (.entry j)) := by
  have hlaw := hcat.lawful
  refine ⟨nodup_interfaces t, fun j hj => isInterface_iff.2 (hlaw.kind_of_mem_interfaces hj),
    fun j hj => ?_⟩
  have hk := isInterface_iff.1 hj
  rw [hlaw.mem_interfaces_iff hk, hlaw.subtype_interface_iff ht hk]

/-- The second class has both interfaces of the circle, by way of the class it extends. A pointer to
it has none. -/
theorem mem_interfaces_iff_subtype_feed :
    feedCatalog.interfaces (.entry 26) = [23, 24] ∧
      feedCatalog.subtype (.entry 26) (.entry 24) ∧
      ¬feedCatalog.subtype (.pointer (.entry 26)) (.entry 24) := by
  have hdrive : feedCatalog.interfaces (.entry 26) = [23, 24] := by decide +kernel
  have hpointer : 24 ∉ feedCatalog.interfaces (.pointer (.entry 26)) := by decide +kernel
  have hsource : feedCatalog.isInterface (.entry 24) := by decide +kernel
  have hnotVoid : feedCatalog.isVoid (.entry 26) = false := by decide +kernel
  obtain ⟨-, -, hmem⟩ := mem_interfaces_iff_subtype grown_feedCatalog hnotVoid
  obtain ⟨-, -, hmem'⟩ :=
    mem_interfaces_iff_subtype (t := .pointer (.entry 26)) grown_feedCatalog rfl
  refine ⟨hdrive, (hmem 24 hsource).1 ?_, mt (hmem' 24 hsource).2 hpointer⟩
  rw [hdrive]
  decide

end StackTyping.Catalog
