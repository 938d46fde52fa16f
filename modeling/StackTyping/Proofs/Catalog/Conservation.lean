import Mathlib.Data.List.Basic
import StackTyping.Proofs.Catalog.Naming
import StackTyping.Proofs.Catalog.Subtype

/-!
Growth is conservative: what a catalog says about its types it goes on saying.

Every operation appends. The types that a catalog knows lead to types that it knows, by their
elements, their bases and the interfaces they declare, so no walk that starts at one of them comes
across anything added later. Only a new interface of a known type shows, and it can only make more
types subtypes. Typing a body builds types as terms over known ones and adds nothing; where an array
or pointer over an entry was also added as an entry of its own, the two are equivalent.

Where two catalogs read alike on some types, one search never finds less than the other if its links
are among the other's. Both directions of this give that subtyping does not change, one direction
that it does not shrink.
-/

namespace StackTyping.Catalog

variable {cat cat' later : Catalog} {K : Ty → Prop} {s t x y : Ty} {i j : EntryId}

/-! ### Catalogs that read alike -/

/-- Two catalogs give some types the same kinds and bases, and these lead to no other types. -/
structure Alike (K : Ty → Prop) (cat cat' : Catalog) : Prop where
  kind_eq : ∀ t, K t → cat'.kind t = cat.kind t
  base?_eq : ∀ t, K t → cat'.base? t = cat.base? t
  element : ∀ t e, K t → cat.element? t = some e → K e
  base : ∀ t b, K t → cat.base? t = some b → K b

namespace Alike

variable (h : Alike K cat cat')
include h

lemma symm : Alike K cat' cat := by
  refine ⟨fun t ht => (h.kind_eq t ht).symm, fun t ht => (h.base?_eq t ht).symm,
    fun t e ht he => ?_, fun t b ht hb => ?_⟩
  · rw [element?, h.kind_eq t ht] at he
    exact h.element t e ht he
  · rw [h.base?_eq t ht] at hb
    exact h.base t b ht hb

lemma array (ht : K t) (hk : cat.kind t = .array x) : K x :=
  h.element t x ht (by rw [element?, hk]; rfl)

lemma pointer (ht : K t) (hk : cat.kind t = .pointer x) : K x :=
  h.element t x ht (by rw [element?, hk]; rfl)

lemma expand_eq {t : Ty} (ht : K t) : cat'.expand t = cat.expand t := by
  have hkind := h.kind_eq t ht
  rcases kind_cases cat t with ⟨x, hx⟩ | ⟨x, hx⟩ | ⟨he, -⟩
  · rw [expand_array hx, expand_array (hkind.trans hx), expand_eq (h.array ht hx)]
  · rw [expand_pointer hx, expand_pointer (hkind.trans hx), expand_eq (h.pointer ht hx)]
  · have he' : cat'.element? t = none := by rw [element?, hkind, ← element?, he]
    rw [expand_plain he, expand_plain he']
termination_by t.rank
decreasing_by
  · exact rank_array_lt hx
  · exact rank_pointer_lt hx

lemma equiv_eq (hs : K s) (ht : K t) : cat'.equiv s t = cat.equiv s t := by
  rw [equiv, equiv, h.expand_eq hs, h.expand_eq ht]

lemma baseChain_eq {t : Ty} (ht : K t) : cat'.baseChain t = cat.baseChain t := by
  have hbase := h.base?_eq t ht
  rw [baseChain, baseChain]
  split
  · rename_i b hb
    rw [hb] at hbase
    have hlt := rank_base?_lt hbase.symm
    rw [← hbase]
    dsimp only
    rw [baseChain_eq (h.base t b ht hbase.symm)]
  · rename_i hb
    rw [hb] at hbase
    rw [← hbase]
termination_by t.rank

lemma isExact_eq (ht : K t) : cat'.isExact t = cat.isExact t := by
  rw [isExact, isExact, isPointer, isPointer, isVoid, isVoid, h.kind_eq t ht]

lemma isReferenceElement_eq (ht : K t) :
    cat'.isReferenceElement t = cat.isReferenceElement t := by
  rw [isReferenceElement, isReferenceElement, isBoxable, isBoxable, h.kind_eq t ht,
    h.isExact_eq ht]

end Alike

/-! ### Searches -/

/-- The searches among base types and interfaces, by what they reach. -/
lemma derives_iff_exists : cat.derives s t ↔
    if cat.isInterface t then ∃ i, cat.Inherits s (.entry i) ∧ cat.equiv (.entry i) t
    else ∃ a, cat.Extends s a ∧ cat.equiv a t := by
  unfold derives
  split
  · simp only [List.any_eq_true, mem_supertypes]
  · simp only [List.any_eq_true, mem_baseChain]

lemma subtype_of_not_arrays (hst : ¬(cat.isArray s ∧ cat.isArray t)) :
    cat.subtype s t = (cat.equiv s t || !cat.isExact s && !cat.isExact t &&
      (t == .enumBase && cat.isEnum s || t == .arrayBase && cat.isArray s || cat.isTop t
        || cat.derives s t)) := by
  rw [subtype]
  split
  · rename_i x y hs ht
    exact absurd ⟨isArray_iff.2 ⟨x, hs⟩, isArray_iff.2 ⟨y, ht⟩⟩ hst
  · rfl

/-- The first catalog's interfaces of some types are among the second's, and among the types. -/
def Interfaces (K : Ty → Prop) (cat cat' : Catalog) : Prop :=
  ∀ t j, K t → j ∈ cat.declaredInterfaces t → K (.entry j) ∧ j ∈ cat'.declaredInterfaces t

namespace Alike

variable (h : Alike K cat cat')
include h

lemma extends_mono (hs : K s) (hst : cat.Extends s t) : K t ∧ cat'.Extends s t := by
  induction hst with
  | refl => exact ⟨hs, .refl⟩
  | tail _ hb ih => exact ⟨h.base _ _ ih.1 hb, ih.2.tail ((h.base?_eq _ ih.1).trans hb)⟩

lemma inherits_mono (hint : Interfaces K cat cat') (hs : K s) (hst : cat.Inherits s t) :
    K t ∧ cat'.Inherits s t := by
  induction hst with
  | refl => exact ⟨hs, .refl⟩
  | tail _ hlink ih =>
    rcases hlink with hb | ⟨j, hj, rfl⟩
    · exact ⟨h.base _ _ ih.1 hb, ih.2.tail (Or.inl ((h.base?_eq _ ih.1).trans hb))⟩
    · obtain ⟨hk, hj⟩ := hint _ j ih.1 hj
      exact ⟨hk, ih.2.tail (Or.inr ⟨j, hj, rfl⟩)⟩

lemma derives_mono (hint : Interfaces K cat cat') (hs : K s) (ht : K t)
    (hst : cat.derives s t) : cat'.derives s t := by
  have hkind : cat'.isInterface t = cat.isInterface t := by
    rw [isInterface, isInterface, h.kind_eq t ht]
  rw [derives_iff_exists] at hst ⊢
  rw [hkind]
  split at hst
  · rename_i hti
    obtain ⟨i, hi, hit⟩ := hst
    obtain ⟨hk, hi⟩ := h.inherits_mono hint hs hi
    rw [if_pos hti]
    exact ⟨i, hi, by rw [h.equiv_eq hk ht, hit]⟩
  · rename_i hti
    obtain ⟨a, ha, hat⟩ := hst
    obtain ⟨hk, ha⟩ := h.extends_mono hs ha
    rw [if_neg hti]
    exact ⟨a, ha, by rw [h.equiv_eq hk ht, hat]⟩

/-- **Subtypes stay subtypes** where interfaces are only added. -/
lemma subtype_mono {s t : Ty} (hint : Interfaces K cat cat') (hs : K s) (ht : K t)
    (hst : cat.subtype s t) : cat'.subtype s t := by
  have hks := h.kind_eq s hs
  have hkt := h.kind_eq t ht
  by_cases harr : cat.isArray s ∧ cat.isArray t
  · obtain ⟨x, hx⟩ := isArray_iff.1 harr.1
    obtain ⟨y, hy⟩ := isArray_iff.1 harr.2
    have hkx := h.array hs hx
    have hky := h.array ht hy
    rw [subtype_array_iff hx hy] at hst
    rw [subtype_array_iff (hks.trans hx) (hkt.trans hy), h.equiv_eq hkx hky,
      h.isReferenceElement_eq hkx, h.isReferenceElement_eq hky]
    rcases hst with heq | ⟨hrx, hry, hxy⟩
    · exact Or.inl heq
    · exact Or.inr ⟨hrx, hry, subtype_mono hint hkx hky hxy⟩
  · have harr' : ¬(cat'.isArray s ∧ cat'.isArray t) := by
      rwa [isArray, isArray, hks, hkt]
    have htop : cat'.isTop t = cat.isTop t := by
      rw [isTop, isTop, hkt, h.base?_eq t ht]
    rw [subtype_of_not_arrays harr] at hst
    rw [subtype_of_not_arrays harr', h.equiv_eq hs ht, h.isExact_eq hs, h.isExact_eq ht, isEnum,
      isArray, hks, htop]
    simp only [Bool.or_eq_true, Bool.and_eq_true] at hst ⊢
    rcases hst with heq | ⟨hexact, hrule | hderives⟩
    · exact Or.inl heq
    · exact Or.inr ⟨hexact, Or.inl hrule⟩
    · exact Or.inr ⟨hexact, Or.inr (h.derives_mono hint hs ht hderives)⟩
termination_by s.rank
decreasing_by exact rank_array_lt hx

/-- Where the interfaces are the same, so is what is collected of them. -/
lemma interfaces_eq (hint : Interfaces K cat cat')
    (hdeclared : ∀ t, K t → cat'.declaredInterfaces t = cat.declaredInterfaces t) (ht : K t) :
    cat'.interfaces t = cat.interfaces t := by
  have hchain (a) (ha : a ∈ (cat.baseChain t).reverse) : K a :=
    (h.extends_mono ht (mem_baseChain.1 (List.mem_reverse.1 ha))).1
  have hkind : cat'.isInterface t = cat.isInterface t := by
    rw [isInterface, isInterface, h.kind_eq t ht]
  unfold interfaces
  rw [h.baseChain_eq ht, hkind, List.flatMap_congr fun a ha => hdeclared a (hchain a ha)]
  -- no walk along interfaces leaves the types on which the catalogs agree
  refine Links.visit_congr (K := fun i => K (.entry i)) (fun i hi => hdeclared _ hi)
    (fun i j hi hj => (hint _ j hi hj).1) fun j hj => ?_
  obtain ⟨a, ha, hj⟩ := List.mem_flatMap.1 hj
  exact (hint a j (hchain a ha) hj).1

end Alike

/-! ### Known types -/

/-- The type is built over an entry of the catalog. -/
def Knows (cat : Catalog) : Ty → Prop
  | .entry i => i < cat.entries.size
  | .array e | .pointer e => cat.Knows e

instance decidableKnows (cat : Catalog) : (t : Ty) → Decidable (cat.Knows t)
  | .entry _ => inferInstanceAs (Decidable (_ < _))
  | .array e | .pointer e => decidableKnows cat e

/-- Whatever entries declare as interfaces are entries, and the array class is one. -/
structure Closed (cat : Catalog) : Prop where
  array : EntryId.array < cat.entries.size
  implements : ∀ i j, (i, j) ∈ cat.implements → j < cat.entries.size

/-- The later catalog has the entries and the interfaces of the earlier one, and possibly more. -/
structure Precedes (cat later : Catalog) : Prop where
  entries : cat.entries.toList <+: later.entries.toList
  implements : cat.implements <+: later.implements

lemma knows_element (ht : cat.Knows t) (he : cat.element? t = some x) : cat.Knows x := by
  cases t with
  | entry i =>
    have hlt := rank_element?_lt he
    simp only [element?, kind] at he
    split at he
    · rename_i e _
      cases hk : e.kind with
      | array j | pointer j =>
        simp only [hk, Kind.before] at he
        split at he <;> cases he
        exact Nat.lt_trans hlt ht
      | _ => simp [hk, Kind.before, Kind.element?] at he
    · cases he
  | array e | pointer e =>
    cases he
    exact ht

lemma knows_array (ht : cat.Knows t) (hk : cat.kind t = .array x) : cat.Knows x :=
  knows_element ht (by rw [element?, hk]; rfl)

lemma knows_pointer (ht : cat.Knows t) (hk : cat.kind t = .pointer x) : cat.Knows x :=
  knows_element ht (by rw [element?, hk]; rfl)

lemma Closed.knows_base (h : Closed cat) (hb : cat.base? t = some x) : cat.Knows x := by
  cases t with
  | entry i =>
    obtain ⟨j, hj, rfl⟩ := Option.map_eq_some_iff.1 hb
    exact Nat.lt_trans (baseId?_lt hj) (lt_size_of_baseId? hj)
  | array e =>
    cases hb
    exact h.array
  | pointer e => cases hb

lemma Closed.knows_interface (h : Closed cat) (hj : j ∈ cat.declaredInterfaces t) :
    cat.Knows (.entry j) := by
  cases t with
  | entry i => exact h.implements i j (Links.mem_targets.1 hj)
  | array e => cases hj
  | pointer e => cases hj

namespace Precedes

lemma refl (cat : Catalog) : Precedes cat cat := ⟨List.prefix_rfl, List.prefix_rfl⟩

lemma trans (h : Precedes cat cat') (h' : Precedes cat' later) : Precedes cat later :=
  ⟨h.entries.trans h'.entries, h.implements.trans h'.implements⟩

variable (h : Precedes cat later)
include h

lemma getElem?_eq (hi : i < cat.entries.size) : later.entries[i]? = cat.entries[i]? := by
  have hget := List.prefix_iff_getElem?.1 h.entries i (by simpa using hi)
  rw [Array.getElem?_toList, Array.getElem_toList] at hget
  rw [hget, Array.getElem?_eq_getElem hi]

lemma find?_eq {name : TypeName} (hi : cat.find? name = some i) : later.find? name = some i := by
  have hlist (c : Catalog) : c.find? name = c.entries.toList.findIdx? (·.name? == some name) := by
    rw [← List.findIdx?_toArray]
    rfl
  rw [hlist] at hi ⊢
  exact h.entries.findIdx?_eq_some hi

/-- On the types it knows, a catalog reads like every later one. -/
lemma alike (hclosed : Closed cat) : Alike cat.Knows cat later := by
  refine ⟨fun t ht => ?_, fun t ht => ?_, fun t e => knows_element, fun t b _ => hclosed.knows_base⟩
  · cases t with
    | entry i => simp only [kind, h.getElem?_eq ht]
    | array e => rfl
    | pointer e => rfl
  · cases t with
    | entry i => simp only [base?, baseId?, h.getElem?_eq ht]
    | array e => rfl
    | pointer e => rfl

lemma nameOf_eq {t : Ty} (halike : Alike cat.Knows cat later)
    (ht : cat.Knows t) : later.nameOf t = cat.nameOf t := by
  have hkind := halike.kind_eq t ht
  have hown : later.ownName? t = cat.ownName? t := by
    cases t with
    | entry i => simp only [ownName?, h.getElem?_eq ht]
    | array e => rfl
    | pointer e => rfl
  cases hname : cat.ownName? t with
  | some name => rw [nameOf_of_ownName? hname, nameOf_of_ownName? (hown.trans hname)]
  | none =>
    rw [hname] at hown
    rcases kind_cases cat t with ⟨x, hx⟩ | ⟨x, hx⟩ | ⟨he, -⟩
    · rw [nameOf_array hname hx, nameOf_array hown (hkind.trans hx),
        nameOf_eq halike (knows_array ht hx)]
    · rw [nameOf_pointer hname hx, nameOf_pointer hown (hkind.trans hx),
        nameOf_eq halike (knows_pointer ht hx)]
    · have he' : later.element? t = none := by rw [element?, hkind, ← element?, he]
      rw [nameOf_plain hname he, nameOf_plain hown he']
termination_by t.rank
decreasing_by
  · exact rank_array_lt hx
  · exact rank_pointer_lt hx

lemma interfaces (hclosed : Closed cat) : Interfaces cat.Knows cat later := by
  intro t j _ hj
  refine ⟨hclosed.knows_interface hj, ?_⟩
  cases t with
  | entry i => exact Links.mem_targets.2 (h.implements.subset (Links.mem_targets.1 hj))
  | array e => exact hj
  | pointer e => exact hj

end Precedes

/-! ### Operations -/

lemma precedes_append (e : Entry) : Precedes cat (cat.append e).2 := by
  refine ⟨?_, List.prefix_rfl⟩
  rw [append, Array.toList_push]
  exact List.prefix_append _ _

lemma precedes_apply (op : Op) : Precedes cat (cat.apply op) := by
  cases op with
  | declareType name kind base? =>
    rw [apply, declareType]
    split
    · exact .refl cat
    · exact precedes_append _
  | newArray | newPointer => exact precedes_append _
  | implement type interface => exact ⟨List.prefix_rfl, List.prefix_append _ _⟩
  | declareMethod | declareField => exact ⟨List.prefix_rfl, List.prefix_rfl⟩

lemma Precedes.size_le (h : Precedes cat later) : cat.entries.size ≤ later.entries.size := by
  simpa using h.entries.length_le

lemma Grows.precedes {P : Catalog → Op → Prop} (h : Grows P cat later) : Precedes cat later := by
  induction h with
  | refl => exact .refl cat
  | tail _ hstep ih =>
    obtain ⟨op, -, -⟩ := hstep
    exact ih.trans (precedes_apply op)

lemma Closed.apply {op : Op} (hclosed : Closed cat) (hlinks : op.Linked cat) :
    Closed (cat.apply op) := by
  have hsize : cat.entries.size ≤ (cat.apply op).entries.size := (precedes_apply op).size_le
  refine ⟨Nat.lt_of_lt_of_le hclosed.array hsize, fun i j hij => ?_⟩
  cases op with
  | declareType =>
    rw [Catalog.apply, implements_declareType] at hij
    exact Nat.lt_of_lt_of_le (hclosed.implements i j hij) hsize
  | newArray | newPointer | declareMethod | declareField =>
    exact Nat.lt_of_lt_of_le (hclosed.implements i j hij) hsize
  | implement type interface =>
    rcases List.mem_append.1 hij with hij | hij
    · exact hclosed.implements i j hij
    · obtain ⟨-, rfl⟩ := Prod.mk.inj (List.mem_singleton.1 hij)
      exact hlinks.2

lemma Built.closed (h : Built cat) : Closed cat := by
  induction h with
  | refl => exact ⟨by decide, nofun⟩
  | tail _ hstep ih =>
    obtain ⟨op, hlinks, -⟩ := hstep
    exact ih.apply hlinks

lemma Built.size_le (h : Built cat) : 23 ≤ cat.entries.size := Grows.precedes h |>.size_le

/-- No entry before position `n` is declared to implement an interface. -/
def Op.KeepsInterfaces (n : EntryId) : Op → Prop
  | implement type _ => n ≤ type
  | declareType .. | newArray _ | newPointer _ | declareMethod _ | declareField _ => True

lemma targets_apply {n : EntryId} {op : Op} (h : op.KeepsInterfaces n) (hi : i < n) :
    (cat.apply op).implements.targets i = cat.implements.targets i := by
  cases op with
  | declareType => rw [apply, implements_declareType]
  | newArray | newPointer | declareMethod | declareField => rfl
  | implement type interface =>
    have hne : (type == i) = false := beq_false_of_ne (Nat.ne_of_gt (Nat.lt_of_lt_of_le hi h))
    simp [apply, Catalog.implement, Links.targets, hne]

lemma Grows.targets_eq {n : EntryId} (h : Grows (fun _ op => op.KeepsInterfaces n) cat later)
    (hi : i < n) : later.implements.targets i = cat.implements.targets i := by
  induction h with
  | refl => rfl
  | tail _ hstep ih =>
    obtain ⟨op, -, hop⟩ := hstep
    rw [targets_apply hop hi, ih]

lemma Grows.declaredInterfaces_eq
    (h : Grows (fun _ op => op.KeepsInterfaces cat.entries.size) cat later) (ht : cat.Knows t) :
    later.declaredInterfaces t = cat.declaredInterfaces t := by
  cases t with
  | entry i => exact h.targets_eq ht
  | array e => rfl
  | pointer e => rfl

lemma Precedes.subtype_eq (h : Precedes cat later) (hclosed : Closed cat)
    (hdeclared : ∀ t, cat.Knows t → later.declaredInterfaces t = cat.declaredInterfaces t)
    (hs : cat.Knows s) (ht : cat.Knows t) : later.subtype s t = cat.subtype s t := by
  have halike := h.alike hclosed
  have hback : Interfaces cat.Knows later cat := by
    intro u j hu hj
    rw [hdeclared u hu] at hj
    exact ⟨hclosed.knows_interface hj, hj⟩
  refine Bool.eq_iff_iff.2 ⟨fun hst => ?_, fun hst => ?_⟩
  · exact halike.symm.subtype_mono hback hs ht hst
  · exact halike.subtype_mono (h.interfaces hclosed) hs ht hst

/-- **Growth is conservative.** However a catalog was built and whatever is done to it, the names it
has lead to the same entries, and the types it knows have the same equivalent types, the same chain
of bases and at least the same supertypes. Unless one of its types is made to implement an interface
on the way, their interfaces and supertypes stay exactly the same. -/
theorem growth_conservative (hcat : Built cat) (h : Grows (fun _ _ => True) cat later) :
    (∀ name i, cat.find? name = some i → later.find? name = some i) ∧
      (∀ s t, cat.Knows s → cat.Knows t → later.equiv s t = cat.equiv s t) ∧
      (∀ t, cat.Knows t → later.baseChain t = cat.baseChain t) ∧
      (∀ s t, cat.Knows s → cat.Knows t → cat.subtype s t → later.subtype s t) ∧
      (Grows (fun _ op => op.KeepsInterfaces cat.entries.size) cat later →
        (∀ t, cat.Knows t → later.interfaces t = cat.interfaces t) ∧
          ∀ s t, cat.Knows s → cat.Knows t → later.subtype s t = cat.subtype s t) := by
  have hclosed := hcat.closed
  have hprec := h.precedes
  have halike := hprec.alike hclosed
  have hint := hprec.interfaces hclosed
  refine ⟨fun name i => hprec.find?_eq, fun s t => halike.equiv_eq, fun t => halike.baseChain_eq,
    fun s t => halike.subtype_mono hint, fun hkeeps => ?_⟩
  have hdeclared (t) (ht : cat.Knows t) := hkeeps.declaredInterfaces_eq ht
  exact ⟨fun t => halike.interfaces_eq hint hdeclared,
    fun s t => hprec.subtype_eq hclosed hdeclared⟩

/-- An interface and a class that does not implement it. -/
def hostCatalog : Catalog :=
  ((core.declareInterface ⟨"N.Remote"⟩).2.declareClass ⟨"N.RemoteHost"⟩ EntryId.object).2

/-- Once the class implements the interface, its arrays are subtypes that they were not before. What
it extends, and what a new array entry leaves alone, is as it was. -/
theorem growth_conservative_host :
    (hostCatalog.subtype (.array (.entry 24)) (.array (.entry 23)) = false ∧
      (hostCatalog.implement 24 23).subtype (.array (.entry 24)) (.array (.entry 23)) = true) ∧
    (hostCatalog.implement 24 23).baseChain (.entry 24) = hostCatalog.baseChain (.entry 24) ∧
    (hostCatalog.newArray 24).2.subtype (.array (.entry 24)) (.array (.entry 23)) = false := by
  have hremote := Built.core.apply (.declareInterface ⟨"N.Remote"⟩) (by decide +kernel)
  have hbuilt : Built hostCatalog :=
    hremote.apply (.declareClass ⟨"N.RemoteHost"⟩ EntryId.object) (by decide +kernel)
  have hnone : hostCatalog.subtype (.array (.entry 24)) (.array (.entry 23)) = false := by
    decide +kernel
  obtain ⟨-, -, hchain, -, -⟩ := growth_conservative hbuilt
    (Relation.ReflTransGen.single (.apply (.implement 24 23) (by decide +kernel) trivial))
  have hnew {P : Catalog → Op → Prop} (hP : P hostCatalog (.newArray 24)) :
      Grows P hostCatalog (hostCatalog.newArray 24).2 :=
    Relation.ReflTransGen.single (.apply (.newArray 24) (by decide +kernel) hP)
  obtain ⟨-, -, -, -, hkeeps⟩ := growth_conservative hbuilt (hnew trivial)
  obtain ⟨-, hsame⟩ := hkeeps (hnew trivial)
  have h23 : 23 < hostCatalog.entries.size := by decide +kernel
  have h24 : 24 < hostCatalog.entries.size := by decide +kernel
  refine ⟨⟨hnone, by decide +kernel⟩, hchain (.entry 24) h24, ?_⟩
  rw [hsame (.array (.entry 24)) (.array (.entry 23)) h24 h23, hnone]

/-! ### Entries and terms -/

lemma Precedes.kind_eq (h : Precedes cat later) (hi : i < cat.entries.size) :
    later.kind (.entry i) = cat.kind (.entry i) := by
  simp only [kind, h.getElem?_eq hi]

/-- **Entries and terms.** An array or pointer that is added as an entry is equivalent to the term
over the same element, and stays so. -/
theorem new_entry_equiv_term {P : Catalog → Op → Prop} (hi : i < cat.entries.size) :
    (Grows P (cat.newArray i).2 later →
        later.equiv (.entry (cat.newArray i).1) (.array (.entry i))) ∧
      (Grows P (cat.newPointer i).2 later →
        later.equiv (.entry (cat.newPointer i).1) (.pointer (.entry i))) := by
  have hkind {e : Entry} (h : Grows P (cat.append e).2 later) :
      later.kind (.entry cat.entries.size) = e.kind.before cat.entries.size :=
    (h.precedes.kind_eq (by simp [append])).trans kind_append_self
  refine ⟨fun h => ?_, fun h => ?_⟩
  · exact (equiv_array_iff ((hkind h).trans (Kind.before_array hi)) rfl).2 (equiv_refl _)
  · exact (equiv_pointer_iff ((hkind h).trans (Kind.before_pointer hi)) rfl).2 (equiv_refl _)

end StackTyping.Catalog
