import StackTyping.Proofs.Layout.Accepted

/-!
The innermost of the blocks that share a position, and the innermost of those around a block.

Both are chosen by length, and among blocks of one length try intervals come first. In an accepted
table, where blocks that meet are nested, the block that is chosen lies within all others that were
to be chosen from. Several blocks may have its interval. Then the first of them in the table is
chosen, and it stays the choice as long as it is among the blocks to be chosen from.
-/

namespace StackTyping

namespace Span

variable {s t : Span} {i j : Nat}

lemma encloses_of_length_le (hcross : s.crosses t = false) (hover : s.overlaps t)
    (hle : s.length ≤ t.length) : t.encloses s := by
  simp only [crosses, hover, Bool.true_and, Bool.not_eq_false', Bool.or_eq_true] at hcross
  rcases hcross with h | h
  · simp only [encloses, overlaps, length, Bool.and_eq_true, decide_eq_true_eq] at *
    omega
  · exact h

lemma overlaps_of_contains (hs : s.contains i) (ht : t.contains i) : s.overlaps t := by
  simp only [overlaps, contains, Bool.and_eq_true, decide_eq_true_eq] at *
  omega

lemma contains_of_encloses (h : t.encloses s) (hs : s.contains i) : t.contains i := by
  simp only [encloses, contains, Bool.and_eq_true, decide_eq_true_eq] at *
  omega

lemma encloses_refl (s : Span) : s.encloses s := by
  simp [encloses]

lemma encloses_trans {u : Span} (hst : s.encloses t) (htu : t.encloses u) : s.encloses u := by
  simp only [encloses, Bool.and_eq_true, decide_eq_true_eq] at *
  omega

lemma contains_start (h : s.start < s.stop) : s.contains s.start := by
  simp [contains, h]

lemma eq_of_encloses (h : s.encloses t) (hlen : s.length = t.length) (ht : t.start < t.stop) :
    s = t := by
  obtain ⟨a, b⟩ := s
  obtain ⟨c, d⟩ := t
  simp only [encloses, length, Bool.and_eq_true, decide_eq_true_eq] at h hlen ht
  rw [Span.mk.injEq]
  omega

lemma encloses_of_contains (hcross : s.crosses t = false) (hs : s.contains i) (ht : t.contains i)
    (hs' : ¬s.contains j) (ht' : t.contains j) : t.encloses s := by
  simp only [crosses, overlaps_of_contains hs ht, Bool.true_and, Bool.not_eq_false',
    Bool.or_eq_true] at hcross
  rcases hcross with hin | hin
  · exact absurd (contains_of_encloses hin ht') hs'
  · exact hin

end Span

namespace Block

variable {a b w : Block} {blocks : List Block}

/-- Blocks by length, and at one length try intervals before others. -/
def breadth (b : Block) : Nat := 2 * b.span.length + if b.isTry then 0 else 1

lemma isInside_iff : a.isInside b ↔ a.breadth < b.breadth := by
  unfold isInside breadth
  cases a.isTry <;> cases b.isTry <;> simp <;> omega

lemma isTry_iff : b.isTry ↔ b.kind = .tryBlock := by
  simp [isTry]

lemma surrounds_iff : a.surrounds b ↔
    a ≠ b ∧ a.span.encloses b.span ∧ (a.isTry → a.span.length ≠ b.span.length) := by
  simp [surrounds, imp_iff_not_or, and_assoc]

lemma eq_of_isTry (ha : a.isTry) (hb : b.isTry) (hspan : a.span = b.span) : a = b := by
  rw [isTry_iff] at ha hb
  obtain ⟨kind, span⟩ := a
  obtain ⟨kind', span'⟩ := b
  simp_all

lemma isTry_of_breadth_le (ha : a.isTry) (hlen : a.span.length = b.span.length)
    (hle : b.breadth ≤ a.breadth) : b.isTry := by
  by_contra hb
  simp only [breadth, if_pos ha, if_neg hb] at hle
  omega

/-- Another block around a block that is no narrower lies around it also by the rule for try
intervals. -/
lemma surrounds_of_breadth_le (hb : b.span.start < b.span.stop) (hne : a ≠ b)
    (hin : a.span.encloses b.span) (hle : b.breadth ≤ a.breadth) : a.surrounds b := by
  refine surrounds_iff.2 ⟨hne, hin, fun htry hlen => hne ?_⟩
  have hbtry := isTry_of_breadth_le htry hlen hle
  exact eq_of_isTry htry hbtry (Span.eq_of_encloses hin hlen hb)

lemma length_le_of_breadth_le (h : a.breadth ≤ b.breadth) : a.span.length ≤ b.span.length := by
  unfold breadth at h
  split at h <;> split at h <;> omega

lemma eq_nil_of_innermost? (h : innermost? blocks = none) : blocks = [] := by
  cases blocks with
  | nil => rfl
  | cons b rest =>
    simp only [innermost?] at h
    split at h
    · split at h <;> cases h
    · cases h

lemma breadth_le_of_innermost? (h : innermost? blocks = some b) :
    ∀ c ∈ blocks, b.breadth ≤ c.breadth := by
  induction blocks generalizing b with
  | nil => cases h
  | cons d rest ih =>
    intro c hc
    simp only [innermost?] at h
    split at h
    · rename_i e he
      have hrest := ih he
      split at h
      · rename_i hin
        cases h
        have hed := isInside_iff.1 hin
        rcases List.mem_cons.1 hc with rfl | hc
        · omega
        · exact hrest c hc
      · rename_i hin
        cases h
        have hed := isInside_iff.not.1 hin
        rcases List.mem_cons.1 hc with rfl | hc
        · omega
        · have := hrest c hc
          omega
    · rename_i hnone
      cases h
      rw [eq_nil_of_innermost? hnone, List.mem_singleton] at hc
      exact hc ▸ Nat.le_refl _

/-- The innermost of some blocks is the innermost of those that have a property in common with
it. -/
lemma innermost?_filter_of_innermost? {p : Block → Bool} (h : innermost? blocks = some b)
    (hp : p b) : innermost? (blocks.filter p) = some b := by
  induction blocks generalizing b with
  | nil => cases h
  | cons c rest ih =>
    simp only [innermost?] at h
    split at h
    · rename_i d hd
      split at h
      · rename_i hin
        cases h
        have hrest := ih hd hp
        by_cases hc : p c
        · rw [List.filter_cons_of_pos hc, innermost?, hrest]
          exact if_pos hin
        · rw [List.filter_cons_of_neg hc, hrest]
      · rename_i hin
        cases h
        rw [List.filter_cons_of_pos hp, innermost?]
        -- what is left of the rest is no narrower than `d`, hence not inside the first block
        cases he : innermost? (rest.filter p) with
        | none => rfl
        | some e =>
          have hde := breadth_le_of_innermost? hd e (List.mem_filter.1 (innermost?_mem he)).1
          have hcd := isInside_iff.not.1 hin
          have hce : ¬e.isInside c := by
            rw [isInside_iff]
            omega
          exact if_neg hce
    · rename_i hnone
      cases h
      rw [eq_nil_of_innermost? hnone, List.filter_cons_of_pos hp]
      rfl

/-- The innermost of the blocks with a property is one of them and no broader than any, unless
there is none. -/
lemma innermost?_filter (p : Block → Bool) (blocks : List Block) (w : Block) :
    ((innermost? (blocks.filter p)).getD w = w ∧ ∀ c ∈ blocks, p c = false) ∨
      ∃ b, (innermost? (blocks.filter p)).getD w = b ∧ b ∈ blocks ∧ p b ∧
        ∀ c ∈ blocks, p c → b.breadth ≤ c.breadth := by
  cases h : innermost? (blocks.filter p) with
  | some b =>
    obtain ⟨hb, hp⟩ := List.mem_filter.1 (innermost?_mem h)
    refine Or.inr ⟨b, rfl, hb, hp, fun c hc hpc => ?_⟩
    exact breadth_le_of_innermost? h c (List.mem_filter.2 ⟨hc, hpc⟩)
  | none =>
    have hnil := eq_nil_of_innermost? h
    exact Or.inl ⟨rfl, fun c hc => by simpa using List.filter_eq_nil_iff.1 hnil c hc⟩

end Block

namespace Layout

variable {layout : Layout} {b c outer : Block} {i : Nat}

lemma innermost_cases (layout : Layout) (i : Nat) :
    (layout.innermost i = layout.wholeBody ∧ ∀ c ∈ layout.blocks, c.span.contains i = false) ∨
      (layout.innermost i ∈ layout.blocks ∧ (layout.innermost i).span.contains i ∧
        ∀ c ∈ layout.blocks, c.span.contains i → (layout.innermost i).breadth ≤ c.breadth) := by
  rcases Block.innermost?_filter (·.span.contains i) layout.blocks layout.wholeBody with
    h | ⟨b, hb, h⟩
  · exact Or.inl h
  · rw [innermost, hb]
    exact Or.inr h

lemma innermost_mem (h : layout.innermost i ≠ layout.wholeBody) :
    layout.innermost i ∈ layout.blocks := by
  rcases layout.innermost_cases i with ⟨hwhole, -⟩ | ⟨hmem, -⟩
  · exact absurd hwhole h
  · exact hmem

lemma innermost_mem_of_isTry (h : (layout.innermost i).isTry) :
    layout.innermost i ∈ layout.blocks := by
  refine innermost_mem fun hwhole => ?_
  rw [hwhole] at h
  cases h

lemma enclosing_cases (layout : Layout) (b : Block) :
    (layout.enclosing b = layout.wholeBody ∧ ∀ c ∈ layout.blocks, c.surrounds b = false) ∨
      (layout.enclosing b ∈ layout.blocks ∧ (layout.enclosing b).surrounds b ∧
        ∀ c ∈ layout.blocks, c.surrounds b → (layout.enclosing b).breadth ≤ c.breadth) := by
  rcases Block.innermost?_filter (·.surrounds b) layout.blocks layout.wholeBody with
    h | ⟨c, hc, h⟩
  · exact Or.inl h
  · rw [enclosing, hc]
    exact Or.inr h

namespace Nested

variable (h : layout.Nested)
include h

lemma ne_wholeBody (hb : b ∈ layout.blocks) : b ≠ layout.wholeBody :=
  fun heq => h.proper b hb (heq ▸ rfl)

lemma contains_of_innermost (hi : layout.innermost i ∈ layout.blocks) :
    (layout.innermost i).span.contains i := by
  rcases layout.innermost_cases i with ⟨hwhole, -⟩ | ⟨-, hcontains, -⟩
  · exact absurd hwhole (h.ne_wholeBody hi)
  · exact hcontains

lemma encloses_of_enclosing (hb : layout.enclosing b ∈ layout.blocks) :
    (layout.enclosing b).span.encloses b.span := by
  rcases layout.enclosing_cases b with ⟨hwhole, -⟩ | ⟨-, hsurrounds, -⟩
  · exact absurd hwhole (h.ne_wholeBody hb)
  · exact (Block.surrounds_iff.1 hsurrounds).2.1

lemma encloses_of_breadth_le (hb : b ∈ layout.blocks) (hc : c ∈ layout.blocks)
    (hover : b.span.overlaps c.span) (hle : b.breadth ≤ c.breadth) : c.span.encloses b.span :=
  Span.encloses_of_length_le (h.nested b hb c hc) hover (Block.length_le_of_breadth_le hle)

/-- The innermost block at a position lies within every block there. -/
lemma innermost_within (houter : outer ∈ layout.blocks) (hi : outer.span.contains i) :
    layout.innermost i ∈ layout.blocks ∧ outer.span.encloses (layout.innermost i).span := by
  rcases layout.innermost_cases i with ⟨-, hnone⟩ | ⟨hmem, hcontains, hmin⟩
  · rw [hnone outer houter] at hi
    cases hi
  · have hover := Span.overlaps_of_contains hcontains hi
    exact ⟨hmem, h.encloses_of_breadth_le hmem houter hover (hmin outer houter hi)⟩

/-- The block around another lies within every other block that surrounds it. -/
lemma enclosing_within (hb : b ∈ layout.blocks) (hc : c ∈ layout.blocks)
    (hsurr : c.surrounds b) :
    layout.enclosing b ∈ layout.blocks ∧ c.span.encloses (layout.enclosing b).span ∧
      (layout.enclosing b).breadth ≤ c.breadth := by
  rcases layout.enclosing_cases b with ⟨-, hnone⟩ | ⟨hmem, -, hmin⟩
  · rw [hnone c hc] at hsurr
    cases hsurr
  · -- both lie around the start of `b`
    have hstart := Span.contains_start (h.nonempty b hb)
    have hinner := Span.contains_of_encloses (h.encloses_of_enclosing hmem) hstart
    have houter := Span.contains_of_encloses (Block.surrounds_iff.1 hsurr).2.1 hstart
    have hover := Span.overlaps_of_contains hinner houter
    have hle := hmin c hc hsurr
    exact ⟨hmem, h.encloses_of_breadth_le hmem hc hover hle, hle⟩

/-- The blocks around the innermost block at a position are the others that contain it. -/
lemma surrounds_innermost_iff (hmem : layout.innermost i ∈ layout.blocks)
    (hc : c ∈ layout.blocks) :
    c.surrounds (layout.innermost i) ↔
      c ≠ layout.innermost i ∧ c.span.contains i := by
  constructor
  · intro hsurr
    obtain ⟨hne, hin, -⟩ := Block.surrounds_iff.1 hsurr
    exact ⟨hne, Span.contains_of_encloses hin (h.contains_of_innermost hmem)⟩
  · rintro ⟨hne, hs⟩
    rcases layout.innermost_cases i with ⟨-, hnone⟩ | ⟨-, -, hmin⟩
    · rw [hnone c hc] at hs
      cases hs
    · have hin := (h.innermost_within hc hs).2
      exact Block.surrounds_of_breadth_le (h.nonempty _ hmem) hne hin (hmin c hc hs)

end Nested

end Layout

end StackTyping
