import StackTyping.Proofs.Layout.WellNested

/-!
The innermost block at a position, and the walk outwards from it.

The innermost block is chosen by length. It lies within all other blocks at the position because
blocks of an accepted table that meet are nested, and of the blocks with its interval it is the try
interval if there is one.

From this block the library walks outwards to see whether the position is entered from another
block. It knows that the walk ends, since it looks ahead whether the next block is a try interval.
Here the walk is a loop of rounds that look at one block only, as it is reached, and nothing bounds
their number. It is stopped after `n` rounds, and `none` stands for a walk that is not over by then.
The walk goes on from try intervals alone, and a try interval around another is longer, so it is
over after at most one round for each region and one more. It would not be if it went on from every
block: where two handlers share their interval, some two blocks lie around each other.
-/

namespace StackTyping

namespace Span

lemma contains_iff_mem_positions {s : Span} {i : Nat} : s.contains i ↔ i ∈ s.positions := by
  rw [mem_positions, contains, Bool.and_eq_true, decide_eq_true_eq, decide_eq_true_eq]

lemma encloses_antisymm {s t : Span} (hst : s.encloses t) (hts : t.encloses s) : s = t := by
  obtain ⟨a, b⟩ := s
  obtain ⟨c, d⟩ := t
  simp only [encloses, Bool.and_eq_true, decide_eq_true_eq] at hst hts
  rw [Span.mk.injEq]
  omega

end Span

namespace Layout

variable {layout : Layout} {regions : List Region} {blocks out : List Block} {a b c goal : Block}
  {count i n target : Nat}

/-! ### The innermost block -/

lemma Nested.innermost_eq_of_isTry (h : layout.Nested) (hb : b ∈ layout.blocks) (htry : b.isTry)
    (hspan : b.span = (layout.innermost i).span) (hmem : layout.innermost i ∈ layout.blocks) :
    layout.innermost i = b := by
  have hcontains := h.contains_of_innermost hmem
  rcases layout.innermost_cases i with ⟨hwhole, -⟩ | ⟨-, -, hmin⟩
  · exact absurd hwhole (h.ne_wholeBody hmem)
  · have hle := hmin b hb (hspan ▸ hcontains)
    have hinner := Block.isTry_of_breadth_le htry (congrArg Span.length hspan) hle
    exact Block.eq_of_isTry hinner htry hspan.symm

/-- **The innermost block at a position is innermost.** It is the whole body if no block of the
table contains the position. Otherwise it is a block of the table that contains the position, it
lies within every such block, and it is the try interval if one has its interval. -/
theorem innermost_within_all (h : ofRegions regions count = .ok layout) (i : Nat) :
    ((∀ b ∈ tableBlocks regions, i ∉ b.span.positions) →
      layout.innermost i = ⟨.wholeBody, 0, count⟩) ∧
    ((∃ b ∈ tableBlocks regions, i ∈ b.span.positions) →
      layout.innermost i ∈ tableBlocks regions ∧ i ∈ (layout.innermost i).span.positions ∧
      (∀ b ∈ tableBlocks regions, i ∈ b.span.positions →
        (layout.innermost i).span.positions ⊆ b.span.positions) ∧
      ∀ b ∈ tableBlocks regions, b.kind = .tryBlock → b.span = (layout.innermost i).span →
        layout.innermost i = b) := by
  obtain ⟨hnested, rfl⟩ := nested_of_ofRegions h
  simp only [← mem_blocks_iff h, ← Span.contains_iff_mem_positions, ← Block.isTry_iff]
  constructor
  · intro hnone
    rcases layout.innermost_cases i with ⟨hwhole, -⟩ | ⟨hmem, hcontains, -⟩
    · exact hwhole
    · exact absurd hcontains (hnone _ hmem)
  · rintro ⟨b, hb, hi⟩
    have hmem := (hnested.innermost_within hb hi).1
    have hstart := hnested.nonempty _ hmem
    refine ⟨hmem, hnested.contains_of_innermost hmem, fun c hc hci => ?_, fun c hc htry hspan => ?_⟩
    · exact (Span.positions_subset_iff hstart).2 (hnested.innermost_within hc hci).2
    · exact hnested.innermost_eq_of_isTry hc htry hspan hmem

/-- A handler that a catch of strings and a finally share. A try interval covers it, and two others
in it start at its second instruction. -/
def triesInHandler : List Region :=
  [⟨.typedCatch .string, 0, 1, 2, 4, none⟩, ⟨.finally, 1, 1, 2, 4, none⟩,
    ⟨.fault, 3, 3, 6, 1, none⟩, ⟨.fault, 3, 2, 5, 1, none⟩, ⟨.fault, 2, 4, 7, 1, none⟩]

def triesLayout : Layout where
  regions := triesInHandler
  blocks := [⟨.tryBlock, 0, 1⟩, ⟨.catchBlock, 2, 6⟩, ⟨.tryBlock, 1, 2⟩, ⟨.finallyBlock, 2, 6⟩,
    ⟨.tryBlock, 3, 6⟩, ⟨.finallyBlock, 6, 7⟩, ⟨.tryBlock, 3, 5⟩, ⟨.finallyBlock, 5, 6⟩,
    ⟨.tryBlock, 2, 6⟩, ⟨.finallyBlock, 7, 8⟩]
  count := 9

/-- At the start of the handler the try interval that covers it is innermost, though the table names
it last. What is innermost further on lies within the handler, and after it there is no block. -/
theorem innermost_within_all_tries : ofRegions triesInHandler 9 = .ok triesLayout ∧
    triesLayout.innermost 2 = ⟨.tryBlock, 2, 6⟩ ∧
    (triesLayout.innermost 4).span.positions ⊆ Span.positions ⟨2, 6⟩ ∧
    triesLayout.innermost 8 = ⟨.wholeBody, 0, 9⟩ := by
  have h : ofRegions triesInHandler 9 = .ok triesLayout := rfl
  have hcatch : (⟨.catchBlock, 2, 6⟩ : Block) ∈ tableBlocks triesInHandler := by decide
  obtain ⟨-, -, -, htry⟩ := (innermost_within_all h 2).2 ⟨_, hcatch, by decide⟩
  obtain ⟨-, -, hwithin, -⟩ := (innermost_within_all h 4).2 ⟨_, hcatch, by decide⟩
  exact ⟨h, htry ⟨.tryBlock, 2, 6⟩ (by decide) rfl rfl, hwithin _ hcatch (by decide),
    (innermost_within_all h 8).1 (by decide)⟩

/-! ### Rounds of the walk -/

/-- One round of the walk to block `goal`: it ends with an answer, or goes on with another block. -/
def round (layout : Layout) (target : Nat) (goal b : Block) : Bool ⊕ Block :=
  if b = goal then .inl true
  else if b.kind ≠ .tryBlock ∨ b.span.start ≠ target then .inl false
  else .inr (layout.enclosing b)

/-- The answer of the walk from a block, if it is over after `n` rounds. -/
def walk? (layout : Layout) (target : Nat) (goal : Block) : Nat → Block → Option Bool
  | 0, _ => none
  | n + 1, b =>
    match layout.round target goal b with
    | .inl answer => some answer
    | .inr outer => walk? layout target goal n outer

lemma round_cases (layout : Layout) (target : Nat) (goal b : Block) :
    (b = goal ∧ layout.round target goal b = .inl true) ∨
    (b ≠ goal ∧ (b.kind ≠ .tryBlock ∨ b.span.start ≠ target) ∧
      layout.round target goal b = .inl false) ∨
    (b ≠ goal ∧ b.kind = .tryBlock ∧ b.span.start = target ∧
      layout.round target goal b = .inr (layout.enclosing b)) := by
  unfold round
  by_cases hgoal : b = goal
  · exact Or.inl ⟨hgoal, if_pos hgoal⟩
  · rw [if_neg hgoal]
    by_cases hends : b.kind ≠ .tryBlock ∨ b.span.start ≠ target
    · exact Or.inr (Or.inl ⟨hgoal, hends, if_pos hends⟩)
    · obtain ⟨hkind, hstart⟩ := not_or.1 hends
      exact Or.inr (Or.inr ⟨hgoal, not_not.1 hkind, not_not.1 hstart, if_neg hends⟩)

lemma kind_of_round (h : layout.round target goal b = .inr c) :
    b.kind = .tryBlock ∧ c = layout.enclosing b := by
  rcases layout.round_cases target goal b with ⟨-, hround⟩ | ⟨-, -, hround⟩ | ⟨-, hkind, -, hround⟩
  · cases h.symm.trans hround
  · cases h.symm.trans hround
  · exact ⟨hkind, Sum.inr.inj (h.symm.trans hround)⟩

/-- The answer of the library, round by round. -/
lemma climbs_eq_round (layout : Layout) (target : Nat) (goal b : Block) :
    layout.climbs target goal b = match layout.round target goal b with
      | .inl answer => answer
      | .inr outer => layout.climbs target goal outer := by
  rw [Bool.eq_iff_iff, climbs_iff, Block.isTry_iff]
  rcases layout.round_cases target goal b with
    ⟨hgoal, hround⟩ | ⟨hgoal, hends, hround⟩ | ⟨hgoal, hkind, hstart, hround⟩
  · rw [hround]
    exact iff_of_true (Or.inl hgoal) rfl
  · rw [hround]
    refine iff_of_false ?_ Bool.false_ne_true
    rintro (heq | ⟨hkind, hstart, -⟩)
    · exact hgoal heq
    · exact hends.elim (absurd hkind) (absurd hstart)
  · rw [hround]
    simp [hgoal, hkind, hstart]

/-- A round that goes on leads to the whole body or to a block of the layout, and if that is a try
interval it is longer. -/
lemma next_of_round (h : layout.round target goal b = .inr c) :
    b.kind = .tryBlock ∧ c = layout.enclosing b ∧ (c = layout.wholeBody ∨
      c ∈ layout.blocks ∧ (c.kind ≠ .tryBlock ∨
        c.kind = .tryBlock ∧ b.span.length < c.span.length)) := by
  obtain ⟨hkind, rfl⟩ := kind_of_round h
  refine ⟨hkind, rfl, ?_⟩
  rcases layout.enclosing_cases b with ⟨hwhole, -⟩ | ⟨hmem, -, -⟩
  · exact Or.inl hwhole
  · refine Or.inr ⟨hmem, ?_⟩
    by_cases htry : (layout.enclosing b).kind = .tryBlock
    · exact Or.inr ⟨htry, (enclosing_isTry (Block.isTry_iff.2 htry)).2⟩
    · exact Or.inl htry

/-! ### The number of rounds -/

def tries (layout : Layout) : List Block := layout.blocks.filter (·.isTry)

/-- The try intervals that are longer than a block. -/
def longer (layout : Layout) (b : Block) : List Block :=
  layout.tries.filter (b.span.length < ·.span.length)

lemma length_longer_lt (hb : b ∈ layout.blocks) (htry : b.isTry) :
    (layout.longer b).length < layout.tries.length := by
  refine List.length_filter_lt_length_iff_exists.2 ⟨b, List.mem_filter.2 ⟨hb, htry⟩, ?_⟩
  simp

lemma length_longer_enclosing_lt (htry : (layout.enclosing b).isTry) :
    (layout.longer (layout.enclosing b)).length < (layout.longer b).length := by
  obtain ⟨hmem, hlt⟩ := enclosing_isTry htry
  have hfilter : layout.longer (layout.enclosing b)
      = (layout.longer b).filter ((layout.enclosing b).span.length < ·.span.length) := by
    rw [longer, longer, List.filter_filter]
    refine List.filter_congr fun c _ => ?_
    rw [Bool.eq_iff_iff, Bool.and_eq_true, decide_eq_true_eq, decide_eq_true_eq]
    omega
  rw [hfilter, List.length_filter_lt_length_iff_exists]
  refine ⟨layout.enclosing b, List.mem_filter.2 ⟨List.mem_filter.2 ⟨hmem, htry⟩, ?_⟩, ?_⟩
  · simpa using hlt
  · simp

lemma filter_isTry_entryBlocks (r : Region) : r.entryBlocks.filter (·.isTry) = [] := by
  refine List.filter_eq_nil_iff.2 fun b hb => ?_
  rw [Region.not_isTry_of_mem_entryBlocks hb]
  exact Bool.false_ne_true

lemma length_filter_isTry_addRegion_le {r : Region} (h : addRegion count blocks r = .ok out) :
    (out.filter (·.isTry)).length ≤ (blocks.filter (·.isTry)).length + 1 := by
  obtain ⟨-, -, rfl⟩ := addRegion_eq_ok_iff.1 h
  rw [List.filter_append, filter_isTry_entryBlocks, List.append_nil]
  unfold addTry
  split
  · exact Nat.le_succ _
  · rw [List.filter_append, List.length_append]
    exact Nat.add_le_add_left (List.length_filter_le _ _) _

lemma length_tries_le (h : ofRegions regions count = .ok layout) :
    layout.tries.length ≤ regions.length := by
  obtain ⟨blocks, hblocks, -, rfl⟩ := ofRegions_eq_ok_iff.1 h
  have hle := collect_le (f := fun blocks => (blocks.filter (·.isTry)).length)
    (fun _ _ _ => length_filter_isTry_addRegion_le) hblocks
  simpa [tries] using hle

/-! ### The walk ends -/

lemma walk?_of_not_isTry (hb : ¬b.isTry) (hn : 0 < n) :
    layout.walk? target goal n b = some (layout.climbs target goal b) := by
  obtain ⟨m, rfl⟩ := Nat.exists_eq_add_one.2 hn
  rw [walk?, climbs_eq_round]
  cases hround : layout.round target goal b with
  | inl answer => rfl
  | inr outer =>
    exact absurd (Block.isTry_iff.2 (kind_of_round hround).1) hb

/-- The walk takes a round for the block it starts from, one for each longer try interval at most,
and one more. -/
lemma walk?_eq_climbs (hn : (layout.longer b).length + 1 < n) :
    layout.walk? target goal n b = some (layout.climbs target goal b) := by
  induction n generalizing b with
  | zero => omega
  | succ n ih =>
    rw [walk?, climbs_eq_round]
    cases hround : layout.round target goal b with
    | inl answer => rfl
    | inr outer =>
      obtain ⟨-, rfl⟩ := kind_of_round hround
      by_cases htry : (layout.enclosing b).isTry
      · have hlt := length_longer_enclosing_lt htry
        exact ih (by omega)
      · exact walk?_of_not_isTry htry (by omega)

lemma walk?_innermost (h : ofRegions regions count = .ok layout) (hn : regions.length < n) :
    layout.walk? target goal n (layout.innermost target)
      = some (layout.entersFrom target goal) := by
  by_cases htry : (layout.innermost target).isTry
  · have hlt := length_longer_lt (innermost_mem_of_isTry htry) htry
    have hle := length_tries_le h
    exact walk?_eq_climbs (by omega)
  · exact walk?_of_not_isTry htry (by omega)

/-! ### Blocks around each other -/

/-- The handlers and filters with an interval. -/
def tied (layout : Layout) (s : Span) : List Block :=
  layout.blocks.filter fun b => b.span = s && !b.isTry

lemma mem_tied {s : Span} : b ∈ layout.tied s ↔ b ∈ layout.blocks ∧ b.span = s ∧ ¬b.isTry := by
  simp [tied]

lemma surrounds_of_mem_tied {s : Span} (hb : b ∈ layout.tied s) (hc : c ∈ layout.tied s)
    (hne : c ≠ b) : c.surrounds b := by
  obtain ⟨-, hbs, -⟩ := mem_tied.1 hb
  obtain ⟨-, hcs, htry⟩ := mem_tied.1 hc
  refine Block.surrounds_iff.2 ⟨hne, ?_, fun h => absurd h htry⟩
  rw [hbs, hcs]
  exact Span.encloses_refl s

namespace Nested

variable (h : layout.Nested)
include h

lemma enclosing_mem_tied {s : Span} (hb : b ∈ layout.tied s) (hc : c ∈ layout.tied s)
    (hne : c ≠ b) : layout.enclosing b ∈ layout.tied s ∧ layout.enclosing b ≠ b := by
  obtain ⟨hbmem, hbs, -⟩ := mem_tied.1 hb
  obtain ⟨hcmem, hcs, -⟩ := mem_tied.1 hc
  have hsurr := surrounds_of_mem_tied hb hc hne
  obtain ⟨hmem, hwithin, -⟩ := h.enclosing_within hbmem hcmem hsurr
  rcases layout.enclosing_cases b with ⟨hwhole, -⟩ | ⟨-, haround, -⟩
  · exact absurd hwhole (h.ne_wholeBody hmem)
  · obtain ⟨hother, hin, htry⟩ := Block.surrounds_iff.1 haround
    have hspan : (layout.enclosing b).span = s := by
      rw [hcs] at hwithin
      rw [hbs] at hin
      exact Span.encloses_antisymm hin hwithin
    refine ⟨mem_tied.2 ⟨hmem, hspan, fun htry' => htry htry' ?_⟩, hother⟩
    rw [hspan, hbs]

/-- The first of the handlers and filters with an interval lies around each other one. -/
lemma enclosing_eq_first {s : Span} (hfirst : Block.innermost? (layout.tied s) = some a)
    (hb : b ∈ layout.tied s) (hne : a ≠ b) : layout.enclosing b = a := by
  have ha := Block.innermost?_mem hfirst
  have hsurr := surrounds_of_mem_tied hb ha hne
  have htied := (h.enclosing_mem_tied hb ha hne).1
  unfold enclosing at htied ⊢
  cases hi : Block.innermost? (layout.blocks.filter (·.surrounds b)) with
  | none =>
    have hmem : a ∈ layout.blocks.filter (·.surrounds b) :=
      List.mem_filter.2 ⟨(mem_tied.1 ha).1, hsurr⟩
    rw [Block.eq_nil_of_innermost? hi] at hmem
    cases hmem
  | some c =>
    rw [hi] at htied
    -- both are the choice from the blocks that have the interval and surround `b`
    have hc := Block.innermost?_filter_of_innermost? (p := fun b => b.span = s && !b.isTry) hi
      (List.mem_filter.1 htied).2
    have ha' := Block.innermost?_filter_of_innermost? (p := fun c => c.surrounds b) hfirst hsurr
    rw [tied, List.filter_comm, hc] at ha'
    exact Option.some.inj ha'

/-- Where two handlers or filters share an interval, some two lie around each other. -/
lemma exists_cycle (ha : a ∈ layout.blocks) (hb : b ∈ layout.blocks) (hkind : a.kind ≠ b.kind)
    (hspan : a.span = b.span) (hatry : ¬a.isTry) (hbtry : ¬b.isTry) :
    ∃ c ∈ layout.blocks, ∃ d ∈ layout.blocks, c ≠ d ∧ c.span = a.span ∧ d.span = a.span ∧
      layout.enclosing c = d ∧ layout.enclosing d = c := by
  have ha : a ∈ layout.tied a.span := mem_tied.2 ⟨ha, rfl, hatry⟩
  have hb : b ∈ layout.tied a.span := mem_tied.2 ⟨hb, hspan.symm, hbtry⟩
  cases hfirst : Block.innermost? (layout.tied a.span) with
  | none =>
    rw [Block.eq_nil_of_innermost? hfirst] at ha
    cases ha
  -- the first of the tied blocks lies around all others, and one of those around the first
  | some c =>
    have hc := Block.innermost?_mem hfirst
    obtain ⟨e, he, hne⟩ : ∃ e ∈ layout.tied a.span, e ≠ c := by
      by_cases hac : a = c
      · exact ⟨b, hb, fun hbc => hkind (by rw [hac, hbc])⟩
      · exact ⟨a, ha, hac⟩
    obtain ⟨hd, hdc⟩ := h.enclosing_mem_tied hc he hne
    obtain ⟨hcmem, hcs, -⟩ := mem_tied.1 hc
    obtain ⟨hdmem, hds, -⟩ := mem_tied.1 hd
    exact ⟨c, hcmem, layout.enclosing c, hdmem, hdc.symm, hcs, hds, rfl,
      h.enclosing_eq_first hfirst hd hdc.symm⟩

end Nested

/-- **The walk outwards ends** from every position and for every goal, after at most one round for
each region and one more, with the answer of the library. A round that goes on leads from a try
interval to the whole body, to a handler or filter, or to a longer try interval. There is no such
order among all blocks: where a handler or filter shares its interval with one of another kind, two
blocks with this interval lie around each other. -/
theorem walk_ends (h : ofRegions regions count = .ok layout) :
    (∀ target goal n, regions.length < n →
      layout.walk? target goal n (layout.innermost target)
        = some (layout.entersFrom target goal)) ∧
    (∀ target goal b c, layout.round target goal b = .inr c →
      b.kind = .tryBlock ∧ c = layout.enclosing b ∧ (c = layout.wholeBody ∨
        c ∈ tableBlocks regions ∧ (c.kind ≠ .tryBlock ∨
          c.kind = .tryBlock ∧ b.span.length < c.span.length))) ∧
    ∀ a ∈ tableBlocks regions, ∀ b ∈ tableBlocks regions, a.kind ≠ b.kind → a.span = b.span →
      a.kind ≠ .tryBlock → b.kind ≠ .tryBlock →
      ∃ c ∈ tableBlocks regions, ∃ d ∈ tableBlocks regions, c ≠ d ∧ c.span = a.span ∧
        d.span = a.span ∧ layout.enclosing c = d ∧ layout.enclosing d = c := by
  have hnested := (nested_of_ofRegions h).1
  refine ⟨fun target goal n => walk?_innermost h, fun target goal b c hround => ?_, ?_⟩
  · simpa only [mem_blocks_iff h] using next_of_round hround
  · simp only [← mem_blocks_iff h, ← Block.isTry_iff, ne_eq]
    intro a ha b hb
    exact hnested.exists_cycle ha hb

/-- From the shorter of the two try intervals the walk goes on to the longer one and to the one that
covers the handler, and there it ends. It never comes to the catch and the finally, which lie around
each other. -/
theorem walk_ends_tries : ofRegions triesInHandler 9 = .ok triesLayout ∧
    triesLayout.walk? 3 ⟨.tryBlock, 2, 6⟩ 2 (triesLayout.innermost 3) = none ∧
    triesLayout.entersFrom 3 ⟨.tryBlock, 2, 6⟩ = true ∧
    triesLayout.entersFrom 3 ⟨.finallyBlock, 2, 6⟩ = false ∧
    ∃ c ∈ tableBlocks triesInHandler, ∃ d ∈ tableBlocks triesInHandler, c ≠ d ∧
      c.span = ⟨2, 6⟩ ∧ d.span = ⟨2, 6⟩ ∧
      triesLayout.enclosing c = d ∧ triesLayout.enclosing d = c := by
  have h : ofRegions triesInHandler 9 = .ok triesLayout := rfl
  obtain ⟨hends, -, hcycle⟩ := walk_ends h
  refine ⟨h, by decide, ?_, ?_, ?_⟩
  · exact Option.some.inj ((hends 3 ⟨.tryBlock, 2, 6⟩ 6 (by decide)).symm.trans (by decide))
  · exact Option.some.inj ((hends 3 ⟨.finallyBlock, 2, 6⟩ 6 (by decide)).symm.trans (by decide))
  · exact hcycle ⟨.catchBlock, 2, 6⟩ (by decide) ⟨.finallyBlock, 2, 6⟩ (by decide) (by decide) rfl
      (by decide) (by decide)

end Layout

end StackTyping
