import Mathlib.Data.List.Nodup
import Mathlib.Data.List.Pairwise
import StackTyping.Layout.Control
import StackTyping.Proofs.Outcome

/-!
What is known of a table that has a layout.

Each step that forms a layout is given here with the exact condition under which it succeeds: a
region by itself, the blocks that it adds to the list, and the comparison of the blocks on the list
in the end. The blocks of the layout are then those of the table, none of them is empty, and any
two of them that meet are nested.
-/

namespace StackTyping

namespace Span

lemma crosses_comm (s t : Span) : s.crosses t = t.crosses s := by
  rw [crosses, crosses, Bool.or_comm, overlaps, overlaps, Bool.and_comm (s.start < t.stop)]

lemma crosses_self (s : Span) : s.crosses s = false := by
  simp [crosses, encloses]

end Span

namespace Region

variable {r : Region} {b : Block} {count : Nat}

def blocks (r : Region) : List Block := r.tryBlock :: r.entryBlocks

/-- What is asked of a region by itself, in a body of `count` instructions: its intervals are not
empty and end within the body, and it has a filter if it is a filtered catch, which then stands
before the handler. -/
structure Proper (count : Nat) (r : Region) : Prop where
  tryLength_pos : 0 < r.tryLength
  handlerLength_pos : 0 < r.handlerLength
  tryStop_le : r.tryStart + r.tryLength ≤ count
  handlerStop_le : r.handlerStart + r.handlerLength ≤ count
  filtered : r.kind = .filteredCatch → ∃ start < r.handlerStart, r.filterStart? = some start
  unfiltered : r.kind ≠ .filteredCatch → r.filterStart? = none

lemma problem?_eq_none_iff : r.problem? count = none ↔ r.Proper count := by
  constructor
  · intro h
    unfold problem? at h
    split at h
    · cases h
    · rename_i hpos
      split at h
      · rename_i hstop
        refine ⟨by omega, by omega, hstop.1, hstop.2, ?_, ?_⟩
        · intro hkind
          rw [hkind] at h
          cases hs : r.filterStart? with
          | none =>
            rw [hs] at h
            cases h
          | some start =>
            rw [hs] at h
            by_cases hlt : start < r.handlerStart
            · exact ⟨start, hlt, rfl⟩
            · simp [hlt] at h
        · intro hkind
          cases hs : r.filterStart? with
          | none => rfl
          | some start =>
            rw [hs] at h
            cases hk : r.kind with
            | filteredCatch => exact absurd hk hkind
            | _ => rw [hk] at h; cases h
      · cases h
  · intro h
    have hpos : ¬(r.tryLength = 0 ∨ r.handlerLength = 0) := by
      have := h.tryLength_pos
      have := h.handlerLength_pos
      omega
    rw [problem?, if_neg hpos, if_pos ⟨h.tryStop_le, h.handlerStop_le⟩]
    by_cases hkind : r.kind = .filteredCatch
    · obtain ⟨start, hlt, hfilter⟩ := h.filtered hkind
      rw [hkind, hfilter]
      exact if_pos hlt
    · rw [h.unfiltered hkind]
      cases hk : r.kind with
      | filteredCatch => exact absurd hk hkind
      | _ => rfl

lemma Proper.kind_of_filterStart? {start : Nat} (h : r.Proper count)
    (hs : r.filterStart? = some start) : r.kind = .filteredCatch ∧ start < r.handlerStart := by
  by_cases hkind : r.kind = .filteredCatch
  · obtain ⟨start', hlt, hs'⟩ := h.filtered hkind
    cases hs.symm.trans hs'
    exact ⟨hkind, hlt⟩
  · cases hs.symm.trans (h.unfiltered hkind)

lemma mem_entryBlocks : b ∈ r.entryBlocks ↔ b = r.handlerBlock ∨
    ∃ start, r.filterStart? = some start ∧
      (⟨.filterBlock, start, r.handlerStart⟩ : Block) = b := by
  simp only [entryBlocks, filterBlock?, List.mem_cons, Option.mem_toList, Option.map_eq_some_iff]

lemma mem_blocks : b ∈ r.blocks ↔ b = r.tryBlock ∨ b = r.handlerBlock ∨
    ∃ start, r.filterStart? = some start ∧
      (⟨.filterBlock, start, r.handlerStart⟩ : Block) = b := by
  rw [blocks, List.mem_cons, mem_entryBlocks]

lemma Proper.bounds (h : r.Proper count) (hb : b ∈ r.blocks) :
    b.span.start < b.span.stop ∧ b.span.stop ≤ count := by
  rcases mem_blocks.1 hb with rfl | rfl | ⟨start, hs, rfl⟩
  · exact ⟨Nat.lt_add_of_pos_right h.tryLength_pos, h.tryStop_le⟩
  · exact ⟨Nat.lt_add_of_pos_right h.handlerLength_pos, h.handlerStop_le⟩
  · refine ⟨(h.kind_of_filterStart? hs).2, ?_⟩
    exact Nat.le_trans (Nat.le_add_right _ _) h.handlerStop_le

lemma handlerBlock_kind (r : Region) :
    r.handlerBlock.kind = .catchBlock ∨ r.handlerBlock.kind = .finallyBlock := by
  unfold handlerBlock
  cases r.kind <;> simp

lemma kind_ne_wholeBody (hb : b ∈ r.blocks) : b.kind ≠ .wholeBody := by
  rcases mem_blocks.1 hb with rfl | rfl | ⟨start, -, rfl⟩
  · simp [tryBlock]
  · rcases r.handlerBlock_kind with hkind | hkind <;> simp [hkind]
  · simp

lemma not_isTry_of_mem_entryBlocks (hb : b ∈ r.entryBlocks) : b.isTry = false := by
  rcases mem_entryBlocks.1 hb with rfl | ⟨start, -, rfl⟩
  · rcases r.handlerBlock_kind with hkind | hkind <;> simp [Block.isTry, hkind]
  · rfl

lemma ne_tryBlock_of_mem_entryBlocks (hb : b ∈ r.entryBlocks) : b ≠ r.tryBlock := by
  rintro rfl
  cases not_isTry_of_mem_entryBlocks hb

lemma nodup_entryBlocks (r : Region) : r.entryBlocks.Nodup := by
  unfold entryBlocks filterBlock?
  cases r.filterStart? with
  | none => simp
  | some start =>
    have hne : r.handlerBlock ≠ ⟨.filterBlock, start, r.handlerStart⟩ := by
      intro heq
      rcases r.handlerBlock_kind with hkind | hkind <;> rw [heq] at hkind <;> cases hkind
    simpa using hne

end Region

namespace Layout

/-- The blocks of a table, as often as its regions name them. -/
def tableBlocks (regions : List Region) : List Block := regions.flatMap Region.blocks

variable {blocks new out : List Block} {regions : List Region} {r : Region} {b c : Block}
  {count : Nat}

lemma mem_tableBlocks : b ∈ tableBlocks regions ↔ ∃ r ∈ regions, b ∈ r.blocks := List.mem_flatMap

lemma bounds_of_mem_tableBlocks (h : ∀ r ∈ regions, r.Proper count)
    (hb : b ∈ tableBlocks regions) : b.span.start < b.span.stop ∧ b.span.stop ≤ count := by
  obtain ⟨r, hr, hb⟩ := mem_tableBlocks.1 hb
  exact (h r hr).bounds hb

lemma mem_addTry : b ∈ addTry blocks c ↔ b ∈ blocks ∨ b = c := by
  unfold addTry
  split
  · rename_i hc
    have hc : c ∈ blocks := by simpa using hc
    exact ⟨Or.inl, fun h => h.elim id fun h => h ▸ hc⟩
  · simp

lemma addEntries_eq_ok_iff : addEntries blocks new = .ok out ↔
    new.Nodup ∧ (∀ b ∈ new, b ∉ blocks) ∧ out = blocks ++ new := by
  induction new generalizing blocks with
  | nil => simp [addEntries, eq_comm]
  | cons c rest ih =>
    rw [addEntries, List.nodup_cons, List.forall_mem_cons]
    by_cases hc : c ∈ blocks
    · simp [hc]
    · rw [if_neg (by simpa using hc), ih, List.append_assoc, List.singleton_append]
      simp only [List.mem_append, List.mem_singleton]
      grind

lemma addRegion_eq_ok_iff : addRegion count blocks r = .ok out ↔
    (r.problem? count = none ∧ ∀ b ∈ r.entryBlocks, b.span.overlaps r.tryBlock.span = false) ∧
      (∀ b ∈ r.entryBlocks, b ∉ blocks) ∧ out = addTry blocks r.tryBlock ++ r.entryBlocks := by
  unfold addRegion
  cases hp : r.problem? count with
  | some p => simp
  | none =>
    cases hfind : r.entryBlocks.find? (·.span.overlaps r.tryBlock.span) with
    | some b =>
      have hover := List.find?_some hfind
      have hb := List.mem_of_find?_eq_some hfind
      simp only [reduceCtorEq, true_and, false_iff]
      rintro ⟨hapart, -⟩
      rw [hapart b hb] at hover
      cases hover
    | none =>
      have hapart : ∀ b ∈ r.entryBlocks, b.span.overlaps r.tryBlock.span = false := by
        simpa using List.find?_eq_none.1 hfind
      -- a try interval is no handler or filter, so adding it first does not matter
      have hfresh : (∀ b ∈ r.entryBlocks, b ∉ addTry blocks r.tryBlock) ↔
          ∀ b ∈ r.entryBlocks, b ∉ blocks := by
        refine forall₂_congr fun b hb => ?_
        rw [mem_addTry, not_or, and_iff_left (Region.ne_tryBlock_of_mem_entryBlocks hb)]
      simp only [addEntries_eq_ok_iff, hfresh, r.nodup_entryBlocks, true_and, and_iff_right hapart]

lemma mem_addRegion (h : addRegion count blocks r = .ok out) :
    r.Proper count ∧ ∀ b, b ∈ out ↔ b ∈ blocks ∨ b ∈ r.blocks := by
  obtain ⟨⟨hp, -⟩, -, rfl⟩ := addRegion_eq_ok_iff.1 h
  refine ⟨Region.problem?_eq_none_iff.1 hp, fun b => ?_⟩
  rw [List.mem_append, mem_addTry, Region.blocks, List.mem_cons, or_assoc]

lemma mem_collect (h : collect count blocks regions = .ok out) :
    (∀ r ∈ regions, r.Proper count) ∧
      ∀ b, b ∈ out ↔ b ∈ blocks ∨ b ∈ tableBlocks regions := by
  induction regions generalizing blocks with
  | nil =>
    cases h
    simp [tableBlocks]
  | cons r rest ih =>
    obtain ⟨mid, hmid, h⟩ := bind_eq_ok_iff.1 h
    obtain ⟨hp, hmem⟩ := mem_addRegion hmid
    obtain ⟨hps, hmems⟩ := ih h
    refine ⟨List.forall_mem_cons.2 ⟨hp, hps⟩, fun b => ?_⟩
    rw [hmems, hmem, mem_tableBlocks, mem_tableBlocks, List.exists_mem_cons_iff, or_assoc]

/-- What grows by at most `k` with the blocks of one region grows by at most `k` for each region of
a table. -/
lemma collect_le {f : List Block → Nat} {k : Nat}
    (hf : ∀ blocks r out, addRegion count blocks r = .ok out → f out ≤ f blocks + k)
    (h : collect count blocks regions = .ok out) : f out ≤ f blocks + k * regions.length := by
  induction regions generalizing blocks with
  | nil =>
    cases h
    exact Nat.le_refl _
  | cons r rest ih =>
    obtain ⟨mid, hmid, h⟩ := bind_eq_ok_iff.1 h
    have hregion := hf blocks r mid hmid
    have hrest := ih h
    rw [List.length_cons, Nat.mul_succ]
    omega

/-- Handlers and filters of other regions are new after a region if they were so before and are not
its own; its try interval is none of them. -/
lemma not_mem_addTry_append {new : List Region} :
    (∀ b ∈ new.flatMap Region.entryBlocks, b ∉ addTry blocks r.tryBlock ++ r.entryBlocks) ↔
      (∀ b ∈ new.flatMap Region.entryBlocks, b ∉ blocks) ∧
        r.entryBlocks.Disjoint (new.flatMap Region.entryBlocks) := by
  have htry : ∀ b ∈ new.flatMap Region.entryBlocks, b ≠ r.tryBlock := by
    rintro b hb rfl
    obtain ⟨q, -, hb⟩ := List.mem_flatMap.1 hb
    cases Region.not_isTry_of_mem_entryBlocks hb
  constructor
  · intro h
    refine ⟨fun b hb hold => h b hb ?_, fun b hown hb => h b hb ?_⟩
    · exact List.mem_append_left _ (mem_addTry.2 (Or.inl hold))
    · exact List.mem_append_right _ hown
  · rintro ⟨hnew, hdisj⟩ b hb hmem
    rw [List.mem_append, mem_addTry, or_assoc] at hmem
    rcases hmem with hold | heq | hown
    · exact hnew b hb hold
    · exact htry b hb heq
    · exact hdisj hown hb

/-- Blocks can be collected from regions that are sound by themselves and whose handlers and
filters are new and all different. Sharing a try interval does no harm. -/
lemma exists_collect_iff : (∃ out, collect count blocks regions = .ok out) ↔
    (∀ r ∈ regions, r.problem? count = none ∧
      ∀ b ∈ r.entryBlocks, b.span.overlaps r.tryBlock.span = false) ∧
      (regions.flatMap Region.entryBlocks).Nodup ∧
        ∀ b ∈ regions.flatMap Region.entryBlocks, b ∉ blocks := by
  induction regions generalizing blocks with
  | nil => simp [collect]
  | cons r rest ih =>
    rw [collect, exists_bind_eq_ok_iff, List.forall_mem_cons, List.flatMap_cons,
      List.nodup_append', List.forall_mem_append]
    constructor
    · rintro ⟨mid, hmid, hrest⟩
      obtain ⟨hsound, hnew, rfl⟩ := addRegion_eq_ok_iff.1 hmid
      obtain ⟨hsounds, hnodup, hnews⟩ := ih.1 hrest
      obtain ⟨hold, hdisj⟩ := not_mem_addTry_append.1 hnews
      exact ⟨⟨hsound, hsounds⟩, ⟨r.nodup_entryBlocks, hnodup, hdisj⟩, hnew, hold⟩
    · rintro ⟨⟨hsound, hsounds⟩, ⟨-, hnodup, hdisj⟩, hnew, hold⟩
      refine ⟨_, addRegion_eq_ok_iff.2 ⟨hsound, hnew, rfl⟩, ih.2 ⟨hsounds, hnodup, ?_⟩⟩
      exact not_mem_addTry_append.2 ⟨hold, hdisj⟩

lemma crossing?_eq_none_iff : crossing? blocks = none ↔
    blocks.Pairwise fun b c => b.span.crosses c.span = false := by
  induction blocks with
  | nil => simp [crossing?]
  | cons b rest ih =>
    rw [crossing?, List.pairwise_cons, ← ih]
    cases hfind : rest.find? (b.span.crosses ·.span) with
    | some c =>
      have hcross := List.find?_some hfind
      simp only [reduceCtorEq, false_iff]
      rintro ⟨hnone, -⟩
      rw [hnone c (List.mem_of_find?_eq_some hfind)] at hcross
      cases hcross
    | none =>
      have hnone : ∀ c ∈ rest, b.span.crosses c.span = false := by
        simpa using List.find?_eq_none.1 hfind
      exact (and_iff_right hnone).symm

/-- Comparing each block with the ones after it compares any two of them. -/
lemma crossing?_eq_none_iff_forall : crossing? blocks = none ↔
    ∀ b ∈ blocks, ∀ c ∈ blocks, b.span.crosses c.span = false := by
  have hsymm : Std.Symm fun b c : Block => b.span.crosses c.span = false :=
    ⟨fun b c hbc => (Span.crosses_comm c.span b.span).trans hbc⟩
  rw [crossing?_eq_none_iff]
  constructor
  · intro hpair b hb c hc
    exact hpair.forall_of_forall (fun b _ => Span.crosses_self b.span) hb hc
  · exact List.pairwise_of_forall_mem_list

/-- What an accepted table guarantees about its blocks. -/
structure Nested (layout : Layout) : Prop where
  nonempty : ∀ b ∈ layout.blocks, b.span.start < b.span.stop
  proper : ∀ b ∈ layout.blocks, b.kind ≠ .wholeBody
  nested : ∀ b ∈ layout.blocks, ∀ c ∈ layout.blocks, b.span.crosses c.span = false
  entries : ∀ r ∈ layout.regions, ∀ b ∈ r.entryBlocks, b ∈ layout.blocks

variable {layout : Layout}

lemma ofRegions_eq_ok_iff : ofRegions regions count = .ok layout ↔
    ∃ blocks, collect count [] regions = .ok blocks ∧ crossing? blocks = none ∧
      layout = ⟨regions, blocks, count⟩ := by
  unfold ofRegions
  rw [bind_eq_ok_iff]
  refine exists_congr fun blocks => and_congr_right fun _ => ?_
  cases crossing? blocks with
  | some pair => simp
  | none => simp [eq_comm]

lemma mem_blocks_iff (h : ofRegions regions count = .ok layout) :
    b ∈ layout.blocks ↔ b ∈ tableBlocks regions := by
  obtain ⟨blocks, hblocks, -, rfl⟩ := ofRegions_eq_ok_iff.1 h
  simpa using (mem_collect hblocks).2 b

lemma nested_of_ofRegions (h : ofRegions regions count = .ok layout) :
    layout.Nested ∧ layout.count = count := by
  obtain ⟨blocks, hblocks, hcross, rfl⟩ := ofRegions_eq_ok_iff.1 h
  have hproper := (mem_collect hblocks).1
  refine ⟨⟨fun b hb => ?_, fun b hb => ?_, crossing?_eq_none_iff_forall.1 hcross,
    fun r hr b hb => ?_⟩, rfl⟩
  · exact (bounds_of_mem_tableBlocks hproper ((mem_blocks_iff h).1 hb)).1
  · obtain ⟨r, -, hb⟩ := mem_tableBlocks.1 ((mem_blocks_iff h).1 hb)
    exact Region.kind_ne_wholeBody hb
  · exact (mem_blocks_iff h).2 (mem_tableBlocks.2 ⟨r, hr, List.mem_cons_of_mem _ hb⟩)

end Layout

end StackTyping
