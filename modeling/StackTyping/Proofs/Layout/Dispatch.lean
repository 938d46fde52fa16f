import StackTyping.Proofs.Layout.Nesting
import StackTyping.Proofs.Slot.Assign

/-!
What handlers and filters are entered with.

An accepted table gives every handler and filter block to one region, but two of them may start at
the same position if they differ in length or purpose. The position is then typed for the region
that the table lists first, and the exceptions of the others meet a type that is not theirs.
-/

namespace StackTyping

namespace RegionKind

/-- The class whose instances a region is entered with. -/
def caught : RegionKind → Ty
  | .typedCatch t => t
  | .fault | .finally | .filteredCatch => .object

def isTyped : RegionKind → Bool
  | .typedCatch _ => true
  | .fault | .finally | .filteredCatch => false

lemma caught_eq {k : RegionKind} (h : k.isTyped = false) : k.caught = .object := by
  cases k with
  | typedCatch t => cases h
  | _ => rfl

end RegionKind

namespace Region

variable {q r : Region} {cat : Catalog} {count i start : Nat}

lemma exception_eq : r.exception cat
    = ⟨some r.kind.caught, r.kind.isTyped && cat.isBoxable r.kind.caught⟩ := by
  unfold exception
  cases r.kind <;> rfl

/-- Exceptions differ where classes do. Only if values of the top class could be boxed would it
matter which of two equal classes is named by the table. -/
lemma exception_equiv_iff : (q.exception cat).equiv cat (r.exception cat) ↔
    ¬(¬cat.equiv q.kind.caught r.kind.caught ∨
      q.kind.isTyped ≠ r.kind.isTyped ∧ cat.isBoxable .object) := by
  have hiff : (q.exception cat).equiv cat (r.exception cat) ↔
      (q.kind.isTyped && cat.isBoxable q.kind.caught)
        = (r.kind.isTyped && cat.isBoxable r.kind.caught) ∧
        cat.equiv q.kind.caught r.kind.caught := by
    simp [exception_eq, Slot.equiv]
  rw [hiff, not_or, not_not, and_comm]
  refine and_congr_right fun heq => ?_
  rw [Catalog.isBoxable_congr heq]
  cases hq : q.kind.isTyped with
  | true =>
    cases hr : r.kind.isTyped with
    | true => simp
    | false => simp [RegionKind.caught_eq hr]
  | false =>
    rw [← Catalog.isBoxable_congr heq, RegionKind.caught_eq hq]
    cases r.kind.isTyped with
    | true => simp
    | false => simp

lemma exception_of_filterStart? (cat : Catalog) (h : r.problem? count = none)
    (hs : r.filterStart? = some start) : r.exception cat = .declared .object := by
  rw [exception, ((problem?_eq_none_iff.1 h).kind_of_filterStart? hs).1]

lemma mem_entryPoints : i ∈ r.entryPoints ↔ r.handlerStart = i ∨ r.filterStart? = some i := by
  simp [entryPoints, eq_comm]

lemma exists_entryBlock (h : i ∈ r.entryPoints) : ∃ b ∈ r.entryBlocks, b.span.start = i := by
  rcases mem_entryPoints.1 h with rfl | hs
  · exact ⟨r.handlerBlock, mem_entryBlocks.2 (Or.inl rfl), rfl⟩
  · exact ⟨⟨.filterBlock, i, r.handlerStart⟩, mem_entryBlocks.2 (Or.inr ⟨i, hs, rfl⟩), rfl⟩

lemma start_mem_entryPoints {b : Block} (h : b ∈ r.entryBlocks) : b.span.start ∈ r.entryPoints := by
  rcases mem_entryBlocks.1 h with rfl | ⟨start, hs, rfl⟩
  · exact mem_entryPoints.2 (Or.inl rfl)
  · exact mem_entryPoints.2 (Or.inr hs)

end Region

namespace Layout

variable {regions : List Region} {layout : Layout} {q r : Region} {cat : Catalog} {count i : Nat}

/-! ### One region for each handler and filter -/

/-- What an accepted table guarantees about its regions. -/
structure Dispatches (layout : Layout) (regions : List Region) (count : Nat) : Prop where
  regions_eq : layout.regions = regions
  sound : ∀ r ∈ regions, r.problem? count = none
  own : regions.Pairwise fun q r => q.entryBlocks.Disjoint r.entryBlocks

lemma dispatches_of_ofRegions (h : ofRegions regions count = .ok layout) :
    layout.Dispatches regions count := by
  obtain ⟨blocks, hblocks, -, rfl⟩ := ofRegions_eq_ok_iff.1 h
  obtain ⟨hsound, hown, -⟩ := exists_collect_iff.1 ⟨blocks, hblocks⟩
  exact ⟨rfl, fun r hr => (hsound r hr).1, (List.nodup_flatMap.1 hown).2⟩

/-! ### The first region wins -/

lemma findSome?_exception (cat : Catalog) (i : Nat)
    (hsound : ∀ r ∈ regions, r.problem? count = none) :
    (regions.findSome? fun r =>
      if r.handlerStart == i then some (r.exception cat)
      else if r.filterStart? == some i then some (.declared .object)
      else none) = (regions.find? (i ∈ ·.entryPoints)).map (·.exception cat) := by
  induction regions with
  | nil => rfl
  | cons r rest ih =>
    obtain ⟨hr, hrest⟩ := List.forall_mem_cons.1 hsound
    by_cases hi : i ∈ r.entryPoints
    · rw [List.find?_cons_of_pos (by simpa using hi), List.findSome?_cons]
      rcases Region.mem_entryPoints.1 hi with hh | hf
      · simp [hh]
      · simp [hf, Region.exception_of_filterStart? cat hr hf]
    · rw [List.find?_cons_of_neg (by simpa using hi), ← ih hrest]
      obtain ⟨hh, hf⟩ := not_or.1 (Region.mem_entryPoints.not.1 hi)
      exact List.findSome?_cons_of_isNone (by simp [hh, hf])

/-- **A position is typed for the first region that is entered there.** -/
theorem exceptionAt?_eq_find? (h : ofRegions regions count = .ok layout) :
    layout.exceptionAt? cat i
      = (regions.find? (i ∈ ·.entryPoints)).map (·.exception cat) := by
  have hd := dispatches_of_ofRegions h
  rw [exceptionAt?, hd.regions_eq]
  exact findSome?_exception cat i hd.sound

/-- Region `q` takes the place of `r` at a position where both start a handler or filter. The table
lists `q` before `r`, and before `q` no region that is entered there; the two start different blocks
there, and they catch classes that are not equivalent. (The other way to differ needs a catalog
whose top class is a value type.) -/
structure Shadows (cat : Catalog) (regions : List Region) (i : Nat) (q r : Region) : Prop where
  listed : ∃ before after, regions = before ++ q :: after ∧ r ∈ after ∧
    ∀ p ∈ before, i ∉ p.entryPoints
  blocks : ∃ b ∈ q.entryBlocks, ∃ c ∈ r.entryBlocks,
    b.span.start = i ∧ c.span.start = i ∧ b ≠ c
  differ : ¬cat.equiv q.kind.caught r.kind.caught ∨
    q.kind.isTyped ≠ r.kind.isTyped ∧ cat.isBoxable .object

lemma Shadows.find?_eq (h : Shadows cat regions i q r) :
    regions.find? (i ∈ ·.entryPoints) = some q := by
  obtain ⟨before, after, rfl, -, hbefore⟩ := h.listed
  obtain ⟨b, hb, -, -, hi, -⟩ := h.blocks
  have hq : i ∈ q.entryPoints := hi ▸ Region.start_mem_entryPoints hb
  rw [List.find?_append, List.find?_eq_none.2 fun p hp => by simpa using hbefore p hp,
    List.find?_cons_of_pos (by simpa using hq)]
  rfl

/-- The first region entered at a position shadows all others with another exception. -/
lemma shadows_of_find? (h : ofRegions regions count = .ok layout) (hr : r ∈ regions)
    (hi : i ∈ r.entryPoints) (hq : regions.find? (i ∈ ·.entryPoints) = some q)
    (hdiffer : ¬(q.exception cat).equiv cat (r.exception cat)) : Shadows cat regions i q r := by
  have hne : r ≠ q := by
    rintro rfl
    exact hdiffer (Slot.equiv_refl _)
  obtain ⟨hqi, before, after, rfl, hbefore⟩ := List.find?_eq_some_iff_append.1 hq
  simp only [decide_eq_true_eq, Bool.not_eq_eq_eq_not, Bool.not_true, decide_eq_false_iff_not]
    at hqi hbefore
  have hafter : r ∈ after := by
    rcases List.mem_append.1 hr with hr | hr
    · exact absurd hi (hbefore r hr)
    · exact (List.mem_cons.1 hr).resolve_left hne
  obtain ⟨b, hb, hbi⟩ := Region.exists_entryBlock hqi
  obtain ⟨c, hc, hci⟩ := Region.exists_entryBlock hi
  have hown : q.entryBlocks.Disjoint r.entryBlocks :=
    (List.pairwise_cons.1 (List.pairwise_append.1 (dispatches_of_ofRegions h).own).2.1).1 r hafter
  exact ⟨⟨before, after, rfl, hafter, hbefore⟩,
    ⟨b, hb, c, hc, hbi, hci, fun hbc => hown hb (hbc ▸ hc)⟩,
    not_not.1 (Region.exception_equiv_iff.not.1 hdiffer)⟩

lemma exceptionAt?_of_mem_entryPoints (h : ofRegions regions count = .ok layout)
    (hr : r ∈ regions) (hi : i ∈ r.entryPoints) :
    ∃ e, layout.exceptionAt? cat i = some e ∧
      (e.equiv cat (r.exception cat) ↔ ∀ q, ¬Shadows cat regions i q r) := by
  obtain ⟨q, hq⟩ : ∃ q, regions.find? (i ∈ ·.entryPoints) = some q :=
    Option.isSome_iff_exists.1 (List.find?_isSome.2 ⟨r, hr, by simpa using hi⟩)
  refine ⟨q.exception cat, by rw [exceptionAt?_eq_find? h, hq]; rfl, ?_⟩
  constructor
  · intro hsame p hp
    have hpq := hp.find?_eq
    rw [hq] at hpq
    cases hpq
    exact Region.exception_equiv_iff.1 hsame hp.differ
  · intro hnone
    by_contra hdiffer
    exact hnone q (shadows_of_find? h hr hi hq hdiffer)

/-- **Every handler is typed for its region unless an earlier one is entered at the same place.**
The handler of each region of an accepted table starts with the exception of that region, and its
filter with an object, exactly if no region shadows it there. -/
theorem typed_iff_not_shadowed (h : ofRegions regions count = .ok layout) (hr : r ∈ regions)
    (cat : Catalog) :
    (∃ e, layout.exceptionAt? cat r.handlerStart = some e ∧
      (e.equiv cat (r.exception cat) ↔ ∀ q, ¬Shadows cat regions r.handlerStart q r)) ∧
    ∀ start, r.filterStart? = some start → ∃ e, layout.exceptionAt? cat start = some e ∧
      (e.equiv cat (.declared .object) ↔ ∀ q, ¬Shadows cat regions start q r) := by
  refine ⟨exceptionAt?_of_mem_entryPoints h hr (Region.mem_entryPoints.2 (Or.inl rfl)), ?_⟩
  intro start hs
  have hexc := Region.exception_of_filterStart? cat ((dispatches_of_ofRegions h).sound r hr) hs
  rw [← hexc]
  exact exceptionAt?_of_mem_entryPoints h hr (Region.mem_entryPoints.2 (Or.inr hs))

/-- A catch of strings and a filtered catch that protect the same instruction. -/
def twoCatches : List Region :=
  [⟨.typedCatch .string, 0, 1, 1, 1, none⟩, ⟨.filteredCatch, 0, 1, 4, 1, some 2⟩]

/-- The handler and the filter of the second catch start with an object. -/
theorem typed_twoCatches : ∃ layout, ofRegions twoCatches 5 = .ok layout ∧
    layout.exceptionAt? .core 4 = some (.declared .object) ∧
    layout.exceptionAt? .core 2 = some (.declared .object) ∧
    (∀ q, ¬Shadows .core twoCatches 4 q ⟨.filteredCatch, 0, 1, 4, 1, some 2⟩) ∧
    ∀ q, ¬Shadows .core twoCatches 2 q ⟨.filteredCatch, 0, 1, 4, 1, some 2⟩ := by
  have h : ofRegions twoCatches 5 = .ok ⟨twoCatches, [⟨.tryBlock, 0, 1⟩, ⟨.catchBlock, 1, 2⟩,
    ⟨.catchBlock, 4, 5⟩, ⟨.filterBlock, 2, 4⟩], 5⟩ := rfl
  obtain ⟨⟨e, he, htyped⟩, hfilter⟩ := typed_iff_not_shadowed h
    (r := ⟨.filteredCatch, 0, 1, 4, 1, some 2⟩) (by decide) .core
  obtain ⟨e', he', htyped'⟩ := hfilter 2 rfl
  cases he
  cases he'
  exact ⟨_, h, rfl, rfl, htyped.1 (Slot.equiv_refl _), htyped'.1 (Slot.equiv_refl _)⟩

/-- A catch of strings and a finally that share their handler. -/
def sharedHandler : List Region :=
  [⟨.typedCatch .string, 0, 1, 2, 1, none⟩, ⟨.finally, 1, 1, 2, 1, none⟩]

/-- The table is accepted, and its finally handler starts with a string though it is entered with
any object. -/
theorem finally_entered_with_string :
    ((ofRegions sharedHandler 3).toOption.bind fun layout => layout.exceptionAt? .core 2)
        = some (.declared .string) ∧
      ⟨.finally, 1, 1, 2, 1, none⟩ ∈ sharedHandler ∧
      Region.exception .core ⟨.finally, 1, 1, 2, 1, none⟩ = .declared .object ∧
      (Slot.declared .string).equiv .core (.declared .object) = false := by
  refine ⟨by decide +kernel, by decide, rfl, by decide +kernel⟩

end Layout

end StackTyping
