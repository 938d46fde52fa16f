import StackTyping.Proofs.Layout.Nesting

/-!
What the checks on control mean for the table that a layout was formed from.

A branch and a `leave` are legal or not by the blocks of the table that contain their source and
their target, in whatever order the table names them. At the end of a block only the innermost
block there is checked, and filters. A block that shares its last instruction with blocks inside it
therefore ends as the innermost of them does, and control runs past the end of none.
-/

namespace StackTyping

namespace Layout

variable {layout : Layout} {regions : List Region} {count : Nat}

/-! ### Branches and leaves -/

/-- **A branch is legal** exactly if it exits no block of the table and enters none, except that
it may enter try intervals by their first instruction. -/
theorem checkBranch_eq_ok_iff (h : ofRegions regions count = .ok layout) (source target : Nat) :
    layout.checkBranch source target = .ok () ↔ target < count ∧
      (∀ b ∈ tableBlocks regions, b.span.contains source → b.span.contains target) ∧
        OpensTries (tableBlocks regions) source target := by
  obtain ⟨hnested, hcount⟩ := nested_of_ofRegions h
  rw [checkBranch, Fault.check_eq_ok_iff, hnested.canBranch_iff, hcount]
  simp only [OpensTries, mem_blocks_iff h]

/-- A handler that a catch of strings and a finally share, with a try interval at its end, and a
filtered catch after it. -/
def tiedHandlers : List Region :=
  [⟨.typedCatch .string, 0, 1, 2, 4, none⟩, ⟨.finally, 1, 1, 2, 4, none⟩,
    ⟨.fault, 3, 3, 6, 1, none⟩, ⟨.filteredCatch, 7, 1, 9, 1, some 8⟩]

def tiedLayout : Layout where
  regions := tiedHandlers
  blocks := [⟨.tryBlock, 0, 1⟩, ⟨.catchBlock, 2, 6⟩, ⟨.tryBlock, 1, 2⟩, ⟨.finallyBlock, 2, 6⟩,
    ⟨.tryBlock, 3, 6⟩, ⟨.finallyBlock, 6, 7⟩, ⟨.tryBlock, 7, 8⟩, ⟨.catchBlock, 9, 10⟩,
    ⟨.filterBlock, 8, 9⟩]
  count := 11

/-- From the handler one may branch to the start of the try interval and not to its middle. -/
theorem checkBranch_tiedHandlers : ofRegions tiedHandlers 11 = .ok tiedLayout ∧
    tiedLayout.checkBranch 2 3 = .ok () ∧ tiedLayout.checkBranch 2 4 ≠ .ok () := by
  have h : ofRegions tiedHandlers 11 = .ok tiedLayout := rfl
  refine ⟨h, (checkBranch_eq_ok_iff h 2 3).2 (by decide), ?_⟩
  rw [Ne, checkBranch_eq_ok_iff h 2 4]
  decide

/-- **A `leave` is legal** exactly if it exits no block of the table but the innermost one at its
source, which is then a try interval or a catch handler, and enters no more than a branch may. So it
exits at most one block, and no finally handler or filter. -/
theorem checkLeave_eq_ok_iff (h : ofRegions regions count = .ok layout) (source target : Nat) :
    (layout.checkLeave source target = .ok () ↔ target < count ∧
      ((layout.innermost source).kind = .tryBlock ∨
        (layout.innermost source).kind = .catchBlock) ∧
      (∀ b ∈ tableBlocks regions, b.span.contains source → b ≠ layout.innermost source →
        b.span.contains target) ∧
      OpensTries (tableBlocks regions) source target) ∧
    (layout.checkLeave source target = .ok () →
      ∀ b ∈ tableBlocks regions, b.span.contains source → ¬b.span.contains target →
        b = layout.innermost source ∧ (b.kind = .tryBlock ∨ b.kind = .catchBlock)) := by
  obtain ⟨hnested, hcount⟩ := nested_of_ofRegions h
  rw [checkLeave, Fault.check_eq_ok_iff]
  refine ⟨?_, fun hleave b hb hs ht => ?_⟩
  · rw [hnested.canLeave_iff, hcount]
    simp only [OpensTries, mem_blocks_iff h]
  · obtain ⟨-, hkind, hstays, -⟩ := hnested.canLeave_iff.1 hleave
    have heq : b = layout.innermost source := by
      by_contra hne
      exact ht (hstays b ((mem_blocks_iff h).2 hb) hs hne)
    rw [heq]
    exact ⟨rfl, hkind⟩

/-- A `leave` may exit the try interval into the handler and not both at once. -/
theorem checkLeave_tiedHandlers : ofRegions tiedHandlers 11 = .ok tiedLayout ∧
    tiedLayout.checkLeave 4 2 = .ok () ∧ tiedLayout.checkLeave 4 10 ≠ .ok () := by
  have h : ofRegions tiedHandlers 11 = .ok tiedLayout := rfl
  refine ⟨h, (checkLeave_eq_ok_iff h 4 2).1.2 (by decide), ?_⟩
  rw [Ne, (checkLeave_eq_ok_iff h 4 10).1]
  decide

end Layout

/-! ### Ends of blocks -/

/-- The instructions that exit the block they are in. -/
inductive Instr.Exits : Instr → Prop where
  | leave (target : Nat) : Exits (.leave target)
  | throw : Exits .throw
  | rethrow : Exits .rethrow
  | endfinally : Exits .endfinally
  | endfilter : Exits .endfilter

lemma Instr.Exits.fallsThrough_eq_false {instr : Instr} (h : instr.Exits) :
    instr.fallsThrough = false := by
  cases h <;> rfl

namespace BlockKind

variable {kind : BlockKind} {instr : Instr}

lemma exits_of_endsWith (h : kind.endsWith instr) : instr.Exits := by
  unfold endsWith at h
  split at h
  · exact .leave _
  · exact .throw
  · exact .endfinally
  · exact .endfilter
  · exact .leave _
  · exact .throw
  · exact .rethrow
  · cases h

lemma filterBlock_endsWith_iff : filterBlock.endsWith instr ↔ instr = .endfilter := by
  unfold endsWith
  split <;> simp_all

end BlockKind

namespace Layout

variable {layout : Layout} {regions : List Region} {b : Block} {code : List Instr}

/-- The end of a block is checked unless another block is the innermost one there; the ends of
filters are checked always. -/
lemma checkEnd_eq_ok_iff : layout.checkEnd code b = .ok () ↔
    (b.kind = .filterBlock ∨ layout.innermost (b.span.stop - 1) = b →
      ∃ instr, code[b.span.stop - 1]? = some instr ∧ b.kind.endsWith instr) := by
  unfold checkEnd
  dsimp only
  split
  · rename_i hskip
    simp only [bne_iff_ne, ne_eq, Bool.and_eq_true] at hskip
    simp [hskip]
  · rename_i hskip
    rw [imp_iff_right (by simpa [or_iff_not_imp_left] using hskip)]
    cases code[b.span.stop - 1]? with
    | none => simp
    | some instr => simp

lemma Nested.stop_innermost (h : layout.Nested) (hb : b ∈ layout.blocks) :
    layout.innermost (b.span.stop - 1) ∈ layout.blocks ∧
      (layout.innermost (b.span.stop - 1)).span.stop = b.span.stop := by
  have hstart := h.nonempty b hb
  have hlast : b.span.contains (b.span.stop - 1) := by
    simp only [Span.contains, Bool.and_eq_true, decide_eq_true_eq]
    omega
  obtain ⟨hmem, hin⟩ := h.innermost_within hb hlast
  have hcontains := h.contains_of_innermost hmem
  simp only [Span.contains, Span.encloses, Bool.and_eq_true, decide_eq_true_eq] at hin hcontains
  refine ⟨hmem, ?_⟩
  omega

/-- **No block is left by running past its end.** The ends of blocks are in order exactly if every
block of the table, whether or not others end with it, has as its last instruction one that exits a
block and that the innermost block there may end with, and filters end with `endfilter`. -/
theorem checkEnds_eq_ok_iff (h : ofRegions regions code.length = .ok layout) :
    layout.checkEnds code = .ok () ↔ ∀ b ∈ tableBlocks regions, ∃ instr,
      code[b.span.stop - 1]? = some instr ∧ instr.Exits ∧ instr.fallsThrough = false ∧
        (b.kind = .filterBlock → instr = .endfilter) ∧
          (layout.innermost (b.span.stop - 1)).kind.endsWith instr := by
  have hnested := (nested_of_ofRegions h).1
  simp only [checkEnds, forM_eq_ok_iff, checkEnd_eq_ok_iff, ← mem_blocks_iff h]
  constructor
  · intro hends b hb
    -- the innermost block at the end of `b` is checked, and ends with `b`
    obtain ⟨hmem, hstop⟩ := hnested.stop_innermost hb
    have hinner := hends _ hmem
    rw [hstop] at hinner
    obtain ⟨instr, hinstr, hend⟩ := hinner (Or.inr rfl)
    have hexits := BlockKind.exits_of_endsWith hend
    refine ⟨instr, hinstr, hexits, hexits.fallsThrough_eq_false, fun hkind => ?_, hend⟩
    obtain ⟨instr', hinstr', hend'⟩ := hends b hb (Or.inl hkind)
    obtain rfl := Option.some.inj (hinstr.symm.trans hinstr')
    rw [hkind] at hend'
    exact BlockKind.filterBlock_endsWith_iff.1 hend'
  · rintro hends b hb (hkind | hinner)
    · obtain ⟨instr, hinstr, -, -, hfilter, -⟩ := hends b hb
      rw [hkind]
      exact ⟨instr, hinstr, BlockKind.filterBlock_endsWith_iff.2 (hfilter hkind)⟩
    · obtain ⟨instr, hinstr, -, -, -, hend⟩ := hends b hb
      rw [hinner] at hend
      exact ⟨instr, hinstr, hend⟩

def tiedCode : List Instr :=
  [.leave 10, .leave 10, .nop, .nop, .nop, .throw, .endfinally, .leave 10, .endfilter, .leave 10,
    .ret]

/-- The try interval in the handler ends with `throw`, and so do the catch and the finally. -/
theorem checkEnds_tiedHandlers : ofRegions tiedHandlers tiedCode.length = .ok tiedLayout ∧
    tiedLayout.checkEnds tiedCode = .ok () ∧
      ∀ b ∈ tableBlocks tiedHandlers, ∃ instr, tiedCode[b.span.stop - 1]? = some instr ∧
        instr.Exits ∧ (b.kind = .filterBlock → instr = .endfilter) := by
  have h : ofRegions tiedHandlers tiedCode.length = .ok tiedLayout := rfl
  have hends : tiedLayout.checkEnds tiedCode = .ok () := rfl
  refine ⟨h, hends, fun b hb => ?_⟩
  obtain ⟨instr, hinstr, hexits, -, hfilter, -⟩ := (checkEnds_eq_ok_iff h).1 hends b hb
  exact ⟨instr, hinstr, hexits, hfilter⟩

end Layout

end StackTyping
