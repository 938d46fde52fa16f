import StackTyping.Proofs.Layout.Innermost

/-!
Where control may go, said of the blocks that contain its source and its target.

A branch looks at single blocks. From the innermost block at its target it goes outwards, through
try intervals that start there, until it comes to the innermost block at its source. In an accepted
table any two blocks that meet are nested, and then this asks for two things that mention no order
of the table and no innermost block. Every block around the source is around the target, and every
block around the target alone is a try interval that starts at the target. A `leave` may in addition
exit the innermost block at its source.

The walk ends at the innermost block around both positions. Several blocks may have that interval,
and then the first of them in the table is chosen, at the source and at each step of the walk, since
all of them are among the blocks that are chosen from.

It follows that handlers and filters are entered by exceptions alone, and that no branch or `leave`
gets out of a finally handler or a filter.
-/

namespace StackTyping

/-! ### Going outwards -/

namespace Layout

variable {layout : Layout} {b c goal outer : Block} {i source target : Nat}

lemma climbs_iff : layout.climbs target goal b ↔ b = goal ∨
    b.isTry ∧ b.span.start = target ∧ layout.climbs target goal (layout.enclosing b) := by
  conv_lhs => rw [climbs]
  by_cases htry : (layout.enclosing b).isTry
  · simp [htry, and_assoc]
  · have hnext : layout.climbs target goal (layout.enclosing b) = (layout.enclosing b == goal) := by
      rw [climbs]
      simp [htry]
    simp [htry, hnext, and_assoc]

/-- What holds of the goal and is kept by a step inwards holds of the block that one started
from. -/
lemma climbs_induction {motive : Block → Prop} (h : layout.climbs target goal b)
    (here : motive goal)
    (inwards : ∀ b, b.isTry → b.span.start = target → motive (layout.enclosing b) → motive b) :
    motive b := by
  induction b using climbs.induct layout with
  | case1 b ih =>
    rcases climbs_iff.1 h with rfl | ⟨htry, hstart, hnext⟩
    · exact here
    · refine inwards b htry hstart ?_
      by_cases houter : (layout.enclosing b).isTry
      · exact ih houter hnext
      · rcases climbs_iff.1 hnext with heq | ⟨htry', -⟩
        · rw [heq]
          exact here
        · exact absurd htry' houter

namespace Nested

variable (h : layout.Nested)
include h

lemma encloses_of_climbs (hgoal : goal ∈ layout.blocks) (hclimbs : layout.climbs target goal b) :
    goal.span.encloses b.span := by
  refine (climbs_induction
    (motive := fun b => (b = goal ∨ b.isTry) ∧ goal.span.encloses b.span) hclimbs ?_ ?_).2
  · exact ⟨Or.inl rfl, Span.encloses_refl goal.span⟩
  · rintro b htry - ⟨hnext, hin⟩
    have hmem : layout.enclosing b ∈ layout.blocks := by
      rcases hnext with heq | htry'
      · rw [heq]
        exact hgoal
      · exact (enclosing_isTry htry').1
    exact ⟨Or.inr htry, Span.encloses_trans hin (h.encloses_of_enclosing hmem)⟩

lemma contains_of_entersFrom (hb : b ∈ layout.blocks) (henters : layout.entersFrom target b) :
    b.span.contains target := by
  have hin := h.encloses_of_climbs hb henters
  rcases layout.innermost_cases target with ⟨hwhole, -⟩ | ⟨-, hcontains, -⟩
  · -- going outwards does not lead from the whole body to a block of the table
    rw [entersFrom, hwhole] at henters
    rcases climbs_iff.1 henters with heq | ⟨htry, -⟩
    · exact absurd heq.symm (h.ne_wholeBody hb)
    · cases htry
  · exact Span.contains_of_encloses hin hcontains

end Nested

/-! ### Where the walk ends -/

/-- The innermost block around two positions. -/
def meeting (layout : Layout) (i j : Nat) : Block :=
  (Block.innermost? (layout.blocks.filter fun b => b.span.contains i && b.span.contains j)).getD
    layout.wholeBody

/-- Choosing among blocks around the target that include all those around both positions leads to
where these meet, or to a block around the target alone. -/
lemma eq_meeting_or_outside {p : Block → Bool}
    (hboth : ∀ c ∈ layout.blocks, c.span.contains source → c.span.contains target → p c)
    (htarget : ∀ c ∈ layout.blocks, p c → c.span.contains target)
    (hb : (Block.innermost? (layout.blocks.filter p)).getD layout.wholeBody = b) :
    b = layout.meeting source target ∨
      b ∈ layout.blocks ∧ b.span.contains target ∧ ¬b.span.contains source := by
  -- the blocks around both are those among the chosen ones that are also around the source
  have hfilter : (layout.blocks.filter fun c => c.span.contains source && c.span.contains target)
      = (layout.blocks.filter p).filter (·.span.contains source) := by
    rw [List.filter_filter]
    refine List.filter_congr fun c hc => ?_
    rw [Bool.eq_iff_iff, Bool.and_eq_true, Bool.and_eq_true]
    exact and_congr_right fun hs => ⟨hboth c hc hs, htarget c hc⟩
  rw [meeting, hfilter]
  cases hi : Block.innermost? (layout.blocks.filter p) with
  | none =>
    rw [hi] at hb
    rw [Block.eq_nil_of_innermost? hi]
    exact Or.inl hb.symm
  | some c =>
    rw [hi] at hb
    obtain rfl : c = b := hb
    by_cases hs : c.span.contains source
    · rw [Block.innermost?_filter_of_innermost? hi hs]
      exact Or.inl rfl
    · obtain ⟨hmem, hp⟩ := List.mem_filter.1 (Block.innermost?_mem hi)
      exact Or.inr ⟨hmem, htarget c hmem hp, hs⟩

lemma innermost?_eq_meeting {p : Block → Bool}
    (hp : ∀ c ∈ layout.blocks, p c ↔ c.span.contains source ∧ c.span.contains target) :
    (Block.innermost? (layout.blocks.filter p)).getD layout.wholeBody
      = layout.meeting source target := by
  have hfilter : layout.blocks.filter p
      = layout.blocks.filter fun c => c.span.contains source && c.span.contains target := by
    refine List.filter_congr fun c hc => ?_
    rw [Bool.eq_iff_iff, Bool.and_eq_true]
    exact hp c hc
  rw [hfilter, meeting]

lemma innermost_eq_meeting
    (hstays : ∀ b ∈ layout.blocks, b.span.contains source → b.span.contains target) :
    layout.innermost source = layout.meeting source target :=
  innermost?_eq_meeting fun b hb => ⟨fun hs => ⟨hs, hstays b hb hs⟩, And.left⟩

lemma innermost_eq_meeting_or (layout : Layout) (source target : Nat) :
    layout.innermost target = layout.meeting source target ∨
      layout.innermost target ∈ layout.blocks ∧ (layout.innermost target).span.contains target ∧
        ¬(layout.innermost target).span.contains source :=
  eq_meeting_or_outside (fun _ _ _ ht => ht) (fun _ _ ht => ht) rfl

/-- Every block around the target but not around the source is a try interval that starts at the
target. -/
def OpensTries (blocks : List Block) (source target : Nat) : Prop :=
  ∀ b ∈ blocks, b.span.contains target → ¬b.span.contains source →
    b.kind = .tryBlock ∧ b.span.start = target

instance (blocks : List Block) (source target : Nat) :
    Decidable (OpensTries blocks source target) :=
  inferInstanceAs (Decidable (∀ b ∈ blocks, b.span.contains target → ¬b.span.contains source →
    b.kind = .tryBlock ∧ b.span.start = target))

namespace Nested

variable (h : layout.Nested)
include h

lemma surrounds_of_contains (hb : b ∈ layout.blocks) (htarget : b.span.contains target)
    (hsource : ¬b.span.contains source) (hc : c ∈ layout.blocks)
    (hctarget : c.span.contains target) (hcsource : c.span.contains source) : c.surrounds b := by
  have hin : c.span.encloses b.span :=
    Span.encloses_of_contains (h.nested b hb c hc) htarget hctarget hsource hcsource
  refine Block.surrounds_iff.2 ⟨?_, hin, fun _ hlen => hsource ?_⟩
  · rintro rfl
    exact hsource hcsource
  · rw [← Span.eq_of_encloses hin hlen (h.nonempty b hb)]
    exact hcsource

lemma enclosing_eq_meeting_or (hb : b ∈ layout.blocks) (htarget : b.span.contains target)
    (hsource : ¬b.span.contains source) :
    layout.enclosing b = layout.meeting source target ∨
      layout.enclosing b ∈ layout.blocks ∧ (layout.enclosing b).span.contains target ∧
        ¬(layout.enclosing b).span.contains source := by
  refine eq_meeting_or_outside (fun c hc hs ht => ?_) (fun c hc hsurr => ?_) rfl
  · exact h.surrounds_of_contains hb htarget hsource hc ht hs
  · exact Span.contains_of_encloses (Block.surrounds_iff.1 hsurr).2.1 htarget

/-- If the innermost block at the source is the only one there that is not around the target, they
meet in the block around it. -/
lemma enclosing_eq_meeting (hmem : layout.innermost source ∈ layout.blocks)
    (hexits : ¬(layout.innermost source).span.contains target)
    (hstays : ∀ b ∈ layout.blocks, b.span.contains source → b ≠ layout.innermost source →
      b.span.contains target) :
    layout.enclosing (layout.innermost source) = layout.meeting source target := by
  refine innermost?_eq_meeting fun b hb => ?_
  rw [h.surrounds_innermost_iff hmem hb]
  constructor
  · rintro ⟨hne, hs⟩
    exact ⟨hs, hstays b hb hs hne⟩
  · rintro ⟨hs, ht⟩
    exact ⟨fun heq => hexits (heq ▸ ht), hs⟩

lemma climbs_meeting (hopens : OpensTries layout.blocks source target) (hb : b ∈ layout.blocks)
    (htarget : b.span.contains target) (hsource : ¬b.span.contains source) :
    layout.climbs target (layout.meeting source target) b := by
  induction b using climbs.induct layout with
  | case1 b ih =>
    obtain ⟨htry, hstart⟩ := hopens b hb htarget hsource
    refine climbs_iff.2 (Or.inr ⟨Block.isTry_iff.2 htry, hstart, ?_⟩)
    rcases h.enclosing_eq_meeting_or hb htarget hsource with heq | ⟨hmem, ht, hs⟩
    · exact climbs_iff.2 (Or.inl heq)
    · exact ih (Block.isTry_iff.2 (hopens _ hmem ht hs).1) hmem ht hs

/-- From the target one comes to where the blocks around both positions meet, if there are only try
intervals on the way that start at the target. -/
lemma entersFrom_meeting (hopens : OpensTries layout.blocks source target) :
    layout.entersFrom target (layout.meeting source target) := by
  rcases layout.innermost_eq_meeting_or source target with heq | ⟨hmem, ht, hs⟩
  · exact climbs_iff.2 (Or.inl heq)
  · exact h.climbs_meeting hopens hmem ht hs

/-- On the way outwards to a goal one passes every block that does not lie around the goal, so it
is a try interval that starts at the target. -/
lemma isTry_of_climbs (hclimbs : layout.climbs target goal b) (hb : b ∈ layout.blocks)
    (hc : c ∈ layout.blocks) (hin : c.span.encloses b.span) (hle : b.breadth ≤ c.breadth)
    (hgoal : goal ∈ layout.blocks → ¬c.span.encloses goal.span) :
    c.isTry ∧ c.span.start = target := by
  refine climbs_induction
    (motive := fun b => b ∈ layout.blocks → c.span.encloses b.span → b.breadth ≤ c.breadth →
      c.isTry ∧ c.span.start = target) hclimbs ?_ ?_ hb hin hle
  · intro hmem hin _
    exact absurd hin (hgoal hmem)
  · intro b htry hstart ih hb hin hle
    by_cases hne : c = b
    · rw [hne]
      exact ⟨htry, hstart⟩
    · have hsurr := Block.surrounds_of_breadth_le (h.nonempty b hb) hne hin hle
      obtain ⟨hmem, hin', hle'⟩ := h.enclosing_within hb hc hsurr
      exact ih hmem hin' hle'

lemma opensTries_of_entersFrom (hgoal : goal ∈ layout.blocks → goal.span.contains source)
    (henters : layout.entersFrom target goal) : OpensTries layout.blocks source target := by
  intro c hc htarget hsource
  rcases layout.innermost_cases target with ⟨-, hnone⟩ | ⟨hmem, -, hmin⟩
  · rw [hnone c hc] at htarget
    cases htarget
  · have hin := (h.innermost_within hc htarget).2
    obtain ⟨htry, hstart⟩ := h.isTry_of_climbs henters hmem hc hin (hmin c hc htarget)
      fun hmem hin => hsource (Span.contains_of_encloses hin (hgoal hmem))
    exact ⟨Block.isTry_iff.1 htry, hstart⟩

/-! ### Branches and leaves -/

/-- A branch exits no block, and enters none except try intervals by their first instruction. -/
lemma canBranch_iff : layout.canBranch source target ↔ target < layout.count ∧
    (∀ b ∈ layout.blocks, b.span.contains source → b.span.contains target) ∧
      OpensTries layout.blocks source target := by
  rw [canBranch, Bool.and_eq_true, decide_eq_true_eq]
  refine and_congr_right fun _ => ?_
  constructor
  · intro henters
    refine ⟨fun b hb hs => ?_, h.opensTries_of_entersFrom h.contains_of_innermost henters⟩
    obtain ⟨hmem, hwithin⟩ := h.innermost_within hb hs
    exact Span.contains_of_encloses hwithin (h.contains_of_entersFrom hmem henters)
  · rintro ⟨hstays, hopens⟩
    rw [innermost_eq_meeting hstays]
    exact h.entersFrom_meeting hopens

/-- A `leave` exits at most the innermost block at its source, if that is a try interval or a catch
handler, and enters what a branch may enter. -/
lemma canLeave_iff : layout.canLeave source target ↔ target < layout.count ∧
    ((layout.innermost source).kind = .tryBlock ∨
      (layout.innermost source).kind = .catchBlock) ∧
    (∀ b ∈ layout.blocks, b.span.contains source → b ≠ layout.innermost source →
      b.span.contains target) ∧ OpensTries layout.blocks source target := by
  simp only [canLeave, Bool.and_eq_true, Bool.or_eq_true, decide_eq_true_eq, Block.isTry_iff,
    beq_iff_eq, and_assoc]
  refine and_congr_right fun _ => and_congr_right fun hkind => ?_
  have hmem : layout.innermost source ∈ layout.blocks := by
    refine innermost_mem fun hwhole => ?_
    rw [hwhole] at hkind
    rcases hkind with hkind | hkind <;> cases hkind
  have hinner := h.contains_of_innermost hmem
  constructor
  · rintro (hsame | hnext)
    · have htarget := h.contains_of_entersFrom hmem hsame
      refine ⟨fun b hb hs _ => ?_, h.opensTries_of_entersFrom (fun _ => hinner) hsame⟩
      exact Span.contains_of_encloses (h.innermost_within hb hs).2 htarget
    · refine ⟨fun b hb hs hne => ?_, h.opensTries_of_entersFrom (fun hmem' => ?_) hnext⟩
      · have hsurr := (h.surrounds_innermost_iff hmem hb).2 ⟨hne, hs⟩
        obtain ⟨hmem', hin, -⟩ := h.enclosing_within hmem hb hsurr
        exact Span.contains_of_encloses hin (h.contains_of_entersFrom hmem' hnext)
      · exact Span.contains_of_encloses (h.encloses_of_enclosing hmem') hinner
  · rintro ⟨hstays, hopens⟩
    -- the blocks around both positions are those around the source, or all but the one exited
    by_cases htarget : (layout.innermost source).span.contains target
    · have hall : ∀ b ∈ layout.blocks, b.span.contains source → b.span.contains target := by
        intro b hb hs
        by_cases heq : b = layout.innermost source
        · rw [heq]
          exact htarget
        · exact hstays b hb hs heq
      refine Or.inl ?_
      rw [innermost_eq_meeting hall]
      exact h.entersFrom_meeting hopens
    · refine Or.inr ?_
      rw [h.enclosing_eq_meeting hmem htarget hstays]
      exact h.entersFrom_meeting hopens

/-! ### Handlers and filters -/

lemma opensTries_of_path (hpath : layout.canBranch source target ∨ layout.canLeave source target) :
    OpensTries layout.blocks source target := by
  rcases hpath with hbranch | hleave
  · exact (h.canBranch_iff.1 hbranch).2.2
  · exact (h.canLeave_iff.1 hleave).2.2.2

/-- A branch or `leave` into a handler or filter starts inside it. -/
theorem contains_of_path (houter : outer ∈ layout.blocks) (hkind : outer.isTry = false)
    (hpath : layout.canBranch source target ∨ layout.canLeave source target)
    (htarget : outer.span.contains target) : outer.span.contains source := by
  by_contra hsource
  have htry := (h.opensTries_of_path hpath outer houter htarget hsource).1
  rw [Block.isTry_iff.2 htry] at hkind
  cases hkind

/-- A branch or `leave` exits no finally handler and no filter. -/
theorem contains_target_of_path (houter : outer ∈ layout.blocks) (hkind : outer.isTry = false)
    (hcatch : outer.kind ≠ .catchBlock)
    (hpath : layout.canBranch source target ∨ layout.canLeave source target)
    (hsource : outer.span.contains source) : outer.span.contains target := by
  rcases hpath with hbranch | hleave
  · exact (h.canBranch_iff.1 hbranch).2.1 outer houter hsource
  · obtain ⟨-, hexits, hstays, -⟩ := h.canLeave_iff.1 hleave
    refine hstays outer houter hsource ?_
    -- what is exited is of another kind
    rintro rfl
    rcases hexits with htry | hcatch'
    · rw [Block.isTry_iff.2 htry] at hkind
      cases hkind
    · exact hcatch hcatch'

end Nested

lemma exists_entryBlock_of_exceptionAt? {cat : Catalog} {s : Slot}
    (h : layout.exceptionAt? cat i = some s) :
    ∃ r ∈ layout.regions, ∃ b ∈ r.entryBlocks, b.span.start = i := by
  obtain ⟨r, hr, h⟩ := List.exists_of_findSome?_eq_some h
  refine ⟨r, hr, ?_⟩
  split at h
  · rename_i hi
    exact ⟨r.handlerBlock, Region.mem_entryBlocks.2 (Or.inl rfl), eq_of_beq hi⟩
  · split at h
    · rename_i hi
      exact ⟨⟨.filterBlock, i, r.handlerStart⟩,
        Region.mem_entryBlocks.2 (Or.inr ⟨i, eq_of_beq hi, rfl⟩), rfl⟩
    · cases h

lemma lt_count_of_path (hpath : layout.canBranch source target ∨ layout.canLeave source target) :
    target < layout.count := by
  rcases hpath with h | h
  · simp only [canBranch, Bool.and_eq_true, decide_eq_true_eq] at h
    exact h.1
  · simp only [canLeave, Bool.and_eq_true, decide_eq_true_eq] at h
    exact h.1.1

/-- **No handler or filter is entered from before it** by a branch or a `leave`. -/
theorem exceptionAt?_eq_none (h : layout.Nested) (cat : Catalog) (hlt : source < target)
    (hpath : layout.canBranch source target ∨ layout.canLeave source target) :
    layout.exceptionAt? cat target = none := by
  cases hexc : layout.exceptionAt? cat target with
  | none => rfl
  | some s =>
    obtain ⟨r, hr, b, hb, rfl⟩ := exists_entryBlock_of_exceptionAt? hexc
    have hmem := h.entries r hr b hb
    have hkind := Region.not_isTry_of_mem_entryBlocks hb
    have hstart := Span.contains_start (h.nonempty b hmem)
    have hsource := h.contains_of_path hmem hkind hpath hstart
    simp only [Span.contains, Bool.and_eq_true, decide_eq_true_eq] at hsource
    omega

end Layout

end StackTyping
