import StackTyping.Proofs.Catalog.Equiv
import StackTyping.Proofs.Catalog.Grown

/-!
Names in a catalog, whatever operations it was built with.

No two entries have the same name, and only arrays and pointers go without one. The text of such a
type ends in characters that no valid name contains. So where names are valid, a type that has one
is told by its text from every other type.
-/

namespace StackTyping

/-! ### Characters of names -/

/-- Every character of a text is a dot or lies in one of the pieces. -/
lemma mem_segments {c : Char} {cs : List Char} (h : c ∈ cs) :
    c = '.' ∨ ∃ piece ∈ segments cs, c ∈ piece := by
  induction cs with
  | nil => cases h
  | cons d ds ih =>
    rw [segments]
    rcases List.mem_cons.1 h with rfl | h
    · split
      · rename_i hdot
        exact Or.inl (eq_of_beq hdot)
      · exact Or.inr ⟨_, List.mem_cons_self, List.mem_cons_self⟩
      · exact Or.inr ⟨_, List.mem_cons_self, List.mem_cons_self⟩
    · rcases ih h with hc | ⟨piece, hpiece, hc⟩
      · exact Or.inl hc
      · refine Or.inr ?_
        split
        · exact ⟨piece, List.mem_cons_of_mem _ hpiece, hc⟩
        · rename_i hnil
          rw [hnil] at hpiece
          cases hpiece
        · rename_i first rest hcons
          rw [hcons] at hpiece
          rcases List.mem_cons.1 hpiece with rfl | hpiece
          · exact ⟨d :: piece, List.mem_cons_self, List.mem_cons_of_mem _ hc⟩
          · exact ⟨piece, List.mem_cons_of_mem _ hpiece, hc⟩

lemma TypeName.IsValid.toList_legal {name : TypeName} (hvalid : name.IsValid) :
    name.text.toList ≠ [] ∧ ∀ c ∈ name.text.toList, c ∉ typeNameIllegal := by
  unfold IsValid typeNameProblem? at hvalid
  split at hvalid
  · cases hvalid
  · rename_i hne
    refine ⟨by simpa using hne, fun c hc hill => ?_⟩
    rcases mem_segments hc with rfl | ⟨piece, hpiece, hc⟩
    · exact absurd hill (by decide)
    · have hnone := List.findSome?_eq_none_iff.1 hvalid piece hpiece
      unfold segmentProblem? at hnone
      split at hnone
      · cases hnone
      · split at hnone
        · cases hnone
        · rename_i hany
          refine hany (List.any_eq_true.2 ⟨c, hc, ?_⟩)
          simpa using hill

namespace Catalog

/-- Names are unique, and every type but arrays and pointers has one. -/
structure Named (cat : Catalog) : Prop where
  unique : ∀ i j name, cat.ownName? (.entry i) = some name → cat.ownName? (.entry j) = some name →
    i = j
  unnamed : ∀ i < cat.entries.size, cat.ownName? (.entry i) = none →
    (cat.element? (.entry i)).isSome

/-- All entries that have a name have one that was read from a text. -/
def NamesValid (cat : Catalog) : Prop :=
  ∀ e ∈ cat.entries.toList, ∀ name ∈ e.name?, name.IsValid

instance (cat : Catalog) : Decidable cat.NamesValid :=
  inferInstanceAs (Decidable (∀ _ ∈ _, _))

variable {cat : Catalog} {e : Entry} {name : TypeName} {s t : Ty}

/-! ### Building keeps names apart -/

lemma ownName?_ne_of_find? (h : cat.find? name = none) (i : EntryId) :
    cat.ownName? (.entry i) ≠ some name := by
  intro hi
  obtain ⟨e, he, hname⟩ := Option.bind_eq_some_iff.1 hi
  have hmem := Array.mem_of_getElem? he
  have hne := Array.findIdx?_eq_none_iff.1 h e hmem
  rw [hname, beq_self_eq_true] at hne
  cases hne

lemma lt_size_of_ownName? {i : EntryId} (h : cat.ownName? (.entry i) = some name) :
    i < cat.entries.size := by
  obtain ⟨e, he, -⟩ := Option.bind_eq_some_iff.1 h
  exact (Array.getElem?_eq_some_iff.1 he).1

lemma Named.append (h : Named cat) (hfresh : ∀ name, e.name? = some name → cat.find? name = none)
    (hplain : e.name? = none → (e.kind.before cat.entries.size).element?.isSome) :
    Named (cat.append e).2 := by
  -- the new entry has its own name; every other position reads as before
  have hnew : ∀ i name, (cat.append e).2.ownName? (.entry i) = some name →
      i = cat.entries.size ∧ cat.find? name = none ∨ cat.ownName? (.entry i) = some name := by
    intro i name hi
    by_cases hlast : i = cat.entries.size
    · subst hlast
      rw [ownName?_append_self] at hi
      exact Or.inl ⟨rfl, hfresh name hi⟩
    · rw [ownName?_append_of_ne fun heq => hlast (Ty.entry.inj heq)] at hi
      exact Or.inr hi
  refine ⟨fun i j name hi hj => ?_, fun i hi hnone => ?_⟩
  · rcases hnew i name hi with ⟨rfl, hfind⟩ | hi' <;> rcases hnew j name hj with ⟨rfl, hfind'⟩ | hj'
    · rfl
    · exact absurd hj' (ownName?_ne_of_find? hfind j)
    · exact absurd hi' (ownName?_ne_of_find? hfind' i)
    · exact h.unique i j name hi' hj'
  · by_cases hlast : i = cat.entries.size
    · subst hlast
      rw [ownName?_append_self] at hnone
      rw [element?, kind_append_self]
      exact hplain hnone
    · have hne : Ty.entry i ≠ .entry cat.entries.size := fun heq => hlast (Ty.entry.inj heq)
      rw [ownName?_append_of_ne hne] at hnone
      rw [element?, kind_append_of_ne hne]
      have hsize : (cat.append e).2.entries.size = cat.entries.size + 1 := by simp [Catalog.append]
      exact h.unnamed i (by omega) hnone

lemma Named.core : Named core := by
  have hunique : ∀ i < 23, ∀ j < 23,
      Catalog.core.ownName? (.entry i) = Catalog.core.ownName? (.entry j) → i = j := by
    decide +kernel
  have hnamed : ∀ i < 23, (Catalog.core.ownName? (.entry i)).isSome := by decide +kernel
  refine ⟨fun i j name hi hj => ?_, fun i hi hnone => ?_⟩
  · exact hunique i (lt_size_of_ownName? hi) j (lt_size_of_ownName? hj) (hi.trans hj.symm)
  · have hsome := hnamed i hi
    rw [hnone] at hsome
    cases hsome

lemma Named.apply {op : Op} (h : Named cat) (hlinks : op.Linked cat) : Named (cat.apply op) := by
  cases op with
  | declareType name kind base? =>
    rw [Catalog.apply, Catalog.declareType]
    split
    · exact h
    · rename_i hfind
      refine h.append (fun n hn => ?_) nofun
      cases hn
      exact hfind
  | newArray element =>
    refine h.append nofun fun _ => ?_
    rw [Kind.before_array hlinks]
    rfl
  | newPointer element =>
    refine h.append nofun fun _ => ?_
    rw [Kind.before_pointer hlinks]
    rfl
  | implement | declareMethod | declareField => exact ⟨h.unique, h.unnamed⟩

/-- **Names identify entries** in every catalog that can be built. -/
theorem Built.named (h : Built cat) : Named cat := by
  induction h with
  | refl => exact .core
  | tail _ hstep ih =>
    obtain ⟨op, hlinks, -⟩ := hstep
    exact ih.apply hlinks

/-! ### The text of a type -/

lemma nameOf_of_ownName? (h : cat.ownName? t = some name) : cat.nameOf t = name.text := by
  rw [nameOf, h]

lemma nameOf_array (hname : cat.ownName? t = none) (ht : cat.kind t = .array x) :
    cat.nameOf t = arrayText (cat.nameOf x) := by
  rw [nameOf, hname]
  dsimp only
  split
  · rename_i y hy
    rw [ht] at hy
    cases hy
    rfl
  · rename_i y hy
    rw [ht] at hy
    cases hy
  · rename_i hne _
    exact absurd ht (hne x)

lemma nameOf_pointer (hname : cat.ownName? t = none) (ht : cat.kind t = .pointer x) :
    cat.nameOf t = pointerText (cat.nameOf x) := by
  rw [nameOf, hname]
  dsimp only
  split
  · rename_i y hy
    rw [ht] at hy
    cases hy
  · rename_i y hy
    rw [ht] at hy
    cases hy
    rfl
  · rename_i hne
    exact absurd ht (hne x)

lemma nameOf_plain (hname : cat.ownName? t = none) (ht : cat.element? t = none) :
    cat.nameOf t = "" := by
  rw [nameOf, hname]
  dsimp only
  split
  · rename_i y hy
    rw [element?, hy] at ht
    cases ht
  · rename_i y hy
    rw [element?, hy] at ht
    cases ht
  · rfl

lemma NamesValid.isValid (h : NamesValid cat) (hname : cat.ownName? t = some name) :
    name.IsValid := by
  cases t with
  | entry i =>
    obtain ⟨e, he, hname⟩ := Option.bind_eq_some_iff.1 hname
    exact h e (Array.mem_toList_iff.2 (Array.mem_of_getElem? he)) name hname
  | array e => cases hname
  | pointer e => cases hname

/-- The text of a type without a name is no valid name. -/
lemma nameOf_illegal (h : cat.ownName? t = none) :
    (cat.nameOf t).toList = [] ∨ ∃ c ∈ (cat.nameOf t).toList, c ∈ typeNameIllegal := by
  rw [nameOf, h]
  dsimp only
  split
  · refine Or.inr ⟨'[', ?_, by decide⟩
    rw [arrayText, String.toList_append]
    exact List.mem_append_right _ (by decide)
  · refine Or.inr ⟨'&', ?_, by decide⟩
    rw [pointerText, String.toList_append]
    exact List.mem_append_right _ (by decide)
  · exact Or.inl rfl

namespace Named

variable (h : Named cat)
include h

/-- **A type that has a valid name is told from all others by its text.** -/
lemma eq_of_nameOf_eq (hvalid : name.IsValid) (hs : cat.ownName? s = some name)
    (heq : cat.nameOf s = cat.nameOf t) : s = t := by
  obtain ⟨hne, hlegal⟩ := hvalid.toList_legal
  rw [← nameOf_of_ownName? hs, heq] at hne hlegal
  cases ht : cat.ownName? t with
  | none =>
    rcases nameOf_illegal ht with hnil | ⟨c, hc, hill⟩
    · exact absurd hnil hne
    · exact absurd hill (hlegal c hc)
  | some other =>
    rw [nameOf_of_ownName? hs, nameOf_of_ownName? ht] at heq
    obtain rfl : name = other := by
      cases name
      cases other
      cases heq
      rfl
    cases s with
    | entry i =>
      cases t with
      | entry j => rw [h.unique i j name hs ht]
      | array e => cases ht
      | pointer e => cases ht
    | array e => cases hs
    | pointer e => cases hs

lemma ownName?_of_interface (hk : cat.kind s = .interface) :
    ∃ name, cat.ownName? s = some name := by
  cases hname : cat.ownName? s with
  | some name => exact ⟨name, rfl⟩
  | none =>
    cases s with
    | entry i =>
      have he := h.unnamed i (lt_size_of_kind (by rw [hk]; simp)) hname
      rw [element?, hk] at he
      cases he
    | array e => cases hk
    | pointer e => cases hk

end Named

end Catalog

end StackTyping
