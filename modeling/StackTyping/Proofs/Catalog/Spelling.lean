import StackTyping.Proofs.Catalog.Congruence
import StackTyping.Proofs.Catalog.Conservation

/-!
The text of a type stands for the type.

The names that types are declared under are unique, and the suffixes of arrays and pointers contain
characters that no valid name has. So a text is read back from its end: the suffixes tell how the
type was built, and what remains is the name of an entry. Copies of one array or pointer type share
their text, and only they do. This fails for an array that is declared under a name of its own, so
no type is declared as an array or pointer here.
-/

namespace StackTyping

lemma arrayText_ne_pointerText (a b : String) : arrayText a ≠ pointerText b := by
  intro h
  have hlast := congrArg (List.getLast? ∘ String.toList) h
  simp [arrayText, pointerText] at hlast

namespace Catalog

/-- No array or pointer is declared under a name. Classes, interfaces, value types and enumerations
are, with any entry as their base. -/
def Op.Plain : Op → Prop
  | declareType _ kind _ => kind.element? = none
  | newArray _ | newPointer _ | implement _ _ | declareMethod _ | declareField _ => True

def Declared (cat : Catalog) : Prop := Grows (fun _ op => op.Plain) core cat

variable {cat : Catalog} {s t : Ty}

lemma NamedPlain.declareType (h : NamedPlain cat) (name : TypeName) {kind : Kind EntryId}
    (base? : Option EntryId) (hkind : kind.element? = none) :
    NamedPlain (cat.declareType name kind base?).2 := by
  unfold Catalog.declareType
  split
  · exact h
  · exact namedPlain_append h fun _ => hkind

lemma Declared.namedPlain (h : Declared cat) : NamedPlain cat := by
  induction h with
  | refl => exact Lawful.core.named_plain
  | tail _ hstep ih =>
    obtain ⟨op, -, hop⟩ := hstep
    cases op with
    | declareType name kind base? => exact ih.declareType name base? hop
    | newArray | newPointer => exact namedPlain_append ih nofun
    | implement | declareMethod | declareField => exact ih

lemma Named.cases (h : Named cat) (ht : cat.Knows t) : (∃ name, cat.ownName? t = some name) ∨
    cat.ownName? t = none ∧ ((∃ x, cat.kind t = .array x) ∨ ∃ x, cat.kind t = .pointer x) := by
  cases hname : cat.ownName? t with
  | some name => exact Or.inl ⟨name, rfl⟩
  | none =>
    refine Or.inr ⟨rfl, ?_⟩
    rcases kind_cases cat t with hx | hx | ⟨he, -⟩
    · exact Or.inl hx
    · exact Or.inr hx
    · cases t with
      | entry i =>
        have hsome := h.unnamed i ht hname
        rw [he] at hsome
        cases hsome
      | array e => cases he
      | pointer e => cases he

/-- **The text of a type is read back**, up to copies of the same array or pointer type. -/
lemma Named.equiv_of_nameOf_eq (h : Named cat) (hnames : cat.NamesValid) {s t : Ty}
    (hs : cat.Knows s) (ht : cat.Knows t) (heq : cat.nameOf s = cat.nameOf t) :
    cat.equiv s t := by
  rcases h.cases hs with ⟨name, hname⟩ | ⟨hsn, hsk⟩
  · rw [h.eq_of_nameOf_eq (hnames.isValid hname) hname heq]
    exact equiv_refl t
  rcases h.cases ht with ⟨name, hname⟩ | ⟨htn, htk⟩
  · rw [h.eq_of_nameOf_eq (hnames.isValid hname) hname heq.symm]
    exact equiv_refl s
  -- neither has a name, so the last suffix tells arrays from pointers and the rest is an element
  rcases hsk with ⟨x, hx⟩ | ⟨x, hx⟩ <;> rcases htk with ⟨y, hy⟩ | ⟨y, hy⟩
  · rw [nameOf_array hsn hx, nameOf_array htn hy] at heq
    have hlt := rank_array_lt hx
    have hxy := equiv_of_nameOf_eq h hnames (knows_array hs hx) (knows_array ht hy)
      ((String.append_left_inj _).1 heq)
    exact (equiv_array_iff hx hy).2 hxy
  · rw [nameOf_array hsn hx, nameOf_pointer htn hy] at heq
    exact absurd heq (arrayText_ne_pointerText _ _)
  · rw [nameOf_pointer hsn hx, nameOf_array htn hy] at heq
    exact absurd heq.symm (arrayText_ne_pointerText _ _)
  · rw [nameOf_pointer hsn hx, nameOf_pointer htn hy] at heq
    have hlt := rank_pointer_lt hx
    have hxy := equiv_of_nameOf_eq h hnames (knows_pointer hs hx) (knows_pointer ht hy)
      ((String.append_left_inj _).1 heq)
    exact (equiv_pointer_iff hx hy).2 hxy
termination_by s.rank

/-- **Texts identify types.** Two types of a catalog with valid names are equivalent exactly if they
are shown as the same text, and the texts of other types are ordered. -/
theorem equiv_iff_nameOf_eq (h : Declared cat) (hnames : cat.NamesValid) (hs : cat.Knows s)
    (ht : cat.Knows t) :
    (cat.equiv s t ↔ cat.nameOf s = cat.nameOf t) ∧
      (cat.equiv s t ∨ cat.nameOf s < cat.nameOf t ∨ cat.nameOf t < cat.nameOf s) := by
  have hiff : cat.equiv s t ↔ cat.nameOf s = cat.nameOf t :=
    ⟨h.namedPlain.nameOf_congr, h.built.named.equiv_of_nameOf_eq hnames hs ht⟩
  refine ⟨hiff, ?_⟩
  by_contra hnot
  obtain ⟨hne, hst, hts⟩ : ¬cat.equiv s t ∧ ¬cat.nameOf s < cat.nameOf t ∧
    ¬cat.nameOf t < cat.nameOf s := by simpa only [not_or] using hnot
  exact hne (hiff.2 (String.le_antisymm (String.not_lt.1 hts) (String.not_lt.1 hst)))

/-- The core catalog with two copies of an array type and a pointer type over each. -/
def copiesCatalog : Catalog :=
  let int32 := EntryId.ofPrimitive .int32
  let cat := (core.newArray int32).2
  let cat := (cat.newArray int32).2
  let cat := (cat.newPointer 23).2
  (cat.newPointer 24).2

theorem equiv_iff_nameOf_eq_copies :
    copiesCatalog.Knows (.entry 25) ∧ copiesCatalog.Knows (.entry 26) ∧
      copiesCatalog.nameOf (.entry 25) = "System.Int32[]&" ∧
      copiesCatalog.nameOf (.entry 26) = "System.Int32[]&" ∧
      copiesCatalog.equiv (.entry 25) (.entry 26) := by
  have hcore : Declared core := .refl
  have harrays := (hcore.apply (.newArray (EntryId.ofPrimitive .int32)) (by decide) trivial).apply
    (.newArray (EntryId.ofPrimitive .int32)) (by decide) trivial
  have h : Declared copiesCatalog :=
    (harrays.apply (.newPointer 23) (by decide) trivial).apply (.newPointer 24) (by decide) trivial
  have hs : copiesCatalog.Knows (.entry 25) := by
    show 25 < copiesCatalog.entries.size
    decide
  have ht : copiesCatalog.Knows (.entry 26) := by
    show 26 < copiesCatalog.entries.size
    decide
  have hs' : copiesCatalog.nameOf (.entry 25) = "System.Int32[]&" := by decide +kernel
  have ht' : copiesCatalog.nameOf (.entry 26) = "System.Int32[]&" := by decide +kernel
  exact ⟨hs, ht, hs', ht',
    (equiv_iff_nameOf_eq h (by decide +kernel) hs ht).1.2 (hs'.trans ht'.symm)⟩

end Catalog

end StackTyping
