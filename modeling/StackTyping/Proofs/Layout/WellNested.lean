import Mathlib.Order.Interval.Finset.Nat
import StackTyping.Proofs.Layout.Words

/-!
Which exception tables have a layout.

A layout is formed region by region. Each region is compared with the size of the body and with
its own try interval, its blocks are put on a list unless they are there already, and in the end
each block on the list is compared with the ones after it. What this comes to depends on no order:
the regions are proper, no two of them share a handler or filter, and any two intervals of the
table are disjoint or nested.

Ends of intervals are compared as numbers of any size. A machine with words of 64 bits gives the
same answer, since it refuses an interval whose end is no word.
-/

namespace StackTyping

namespace Span

variable {s t : Span}

def positions (s : Span) : Finset Nat := Finset.Ico s.start s.stop

lemma mem_positions {i : Nat} : i ∈ s.positions ↔ s.start ≤ i ∧ i < s.stop := Finset.mem_Ico

lemma positions_subset_iff (hs : s.start < s.stop) : s.positions ⊆ t.positions ↔ t.encloses s := by
  rw [positions, positions, Finset.Ico_subset_Ico_iff hs]
  simp [encloses]

lemma disjoint_positions_iff (hs : s.start < s.stop) (ht : t.start < t.stop) :
    Disjoint s.positions t.positions ↔ s.overlaps t = false := by
  rw [Finset.disjoint_left, ← Bool.not_eq_true]
  constructor
  · intro hdisj hover
    simp only [overlaps, Bool.and_eq_true, decide_eq_true_eq] at hover
    -- the later of the two starts lies in both
    have hmax := @hdisj (max s.start t.start)
    simp only [mem_positions] at hmax
    omega
  · intro hover i hi hi'
    rw [mem_positions] at hi hi'
    simp only [overlaps, Bool.and_eq_true, decide_eq_true_eq] at hover
    omega

lemma crosses_eq_false_iff (hs : s.start < s.stop) (ht : t.start < t.stop) :
    s.crosses t = false ↔ Disjoint s.positions t.positions ∨
      s.positions ⊆ t.positions ∨ t.positions ⊆ s.positions := by
  rw [disjoint_positions_iff hs ht, positions_subset_iff hs, positions_subset_iff ht, crosses,
    Bool.and_eq_false_iff, Bool.not_eq_false', Bool.or_eq_true, or_comm (a := s.encloses t = true)]

end Span

namespace Region

variable {r : Region} {count : Nat}

/-- A region that is proper and whose handler and filter stand apart from what they protect. -/
structure Sound (count : Nat) (r : Region) : Prop extends r.Proper count where
  apart : ∀ b ∈ r.entryBlocks, Disjoint b.span.positions r.tryBlock.span.positions

lemma sound_iff : r.Sound count ↔ r.problem? count = none ∧
    ∀ b ∈ r.entryBlocks, b.span.overlaps r.tryBlock.span = false := by
  have hiff (h : r.Proper count) (b : Block) (hb : b ∈ r.entryBlocks) :
      Disjoint b.span.positions r.tryBlock.span.positions ↔
        b.span.overlaps r.tryBlock.span = false :=
    Span.disjoint_positions_iff (h.bounds (List.mem_cons_of_mem _ hb)).1
      (h.bounds List.mem_cons_self).1
  rw [problem?_eq_none_iff]
  constructor
  · rintro ⟨h, hapart⟩
    exact ⟨h, fun b hb => (hiff h b hb).1 (hapart b hb)⟩
  · rintro ⟨h, hapart⟩
    exact ⟨h, fun b hb => (hiff h b hb).2 (hapart b hb)⟩

end Region

namespace Layout

variable {blocks : List Block} {regions : List Region} {count : Nat}

/-- A table of sound regions, no two of which name the same handler or filter, and whose intervals
are disjoint or nested. -/
structure WellNested (regions : List Region) (count : Nat) : Prop where
  sound : ∀ r ∈ regions, r.Sound count
  own : (regions.flatMap Region.entryBlocks).Nodup
  nested : ∀ b ∈ tableBlocks regions, ∀ c ∈ tableBlocks regions,
    Disjoint b.span.positions c.span.positions ∨
      b.span.positions ⊆ c.span.positions ∨ c.span.positions ⊆ b.span.positions

lemma crossing?_eq_none_iff_nested (hsound : ∀ r ∈ regions, r.Sound count)
    (h : collect count [] regions = .ok blocks) : crossing? blocks = none ↔
      ∀ b ∈ tableBlocks regions, ∀ c ∈ tableBlocks regions,
        Disjoint b.span.positions c.span.positions ∨
          b.span.positions ⊆ c.span.positions ∨ c.span.positions ⊆ b.span.positions := by
  have hmem (b : Block) : b ∈ blocks ↔ b ∈ tableBlocks regions := by
    simpa using (mem_collect h).2 b
  have hstart (b : Block) (hb : b ∈ tableBlocks regions) : b.span.start < b.span.stop :=
    (bounds_of_mem_tableBlocks (fun r hr => (hsound r hr).toProper) hb).1
  rw [crossing?_eq_none_iff_forall]
  simp only [hmem]
  refine forall₂_congr fun b hb => forall₂_congr fun c hc => ?_
  exact Span.crosses_eq_false_iff (hstart b hb) (hstart c hc)

lemma exists_ofRegions_iff :
    (∃ layout, ofRegions regions count = .ok layout) ↔ WellNested regions count := by
  simp only [ofRegions_eq_ok_iff]
  constructor
  · rintro ⟨-, blocks, hblocks, hcross, -⟩
    obtain ⟨hsound, hown, -⟩ := exists_collect_iff.1 ⟨blocks, hblocks⟩
    have hsound : ∀ r ∈ regions, r.Sound count := fun r hr => Region.sound_iff.2 (hsound r hr)
    exact ⟨hsound, hown, (crossing?_eq_none_iff_nested hsound hblocks).1 hcross⟩
  · rintro ⟨hsound, hown, hnested⟩
    obtain ⟨blocks, hblocks⟩ : ∃ out, collect count [] regions = .ok out :=
      exists_collect_iff.2
        ⟨fun r hr => Region.sound_iff.1 (hsound r hr), hown, fun _ _ => List.not_mem_nil⟩
    exact ⟨_, blocks, hblocks, (crossing?_eq_none_iff_nested hsound hblocks).2 hnested, rfl⟩

/-- **A table has a layout exactly if it is well nested**, also where positions are words. -/
theorem ofRegions_ok_iff_wellNested (regions : List Region) (count : Nat) :
    ((∃ layout, ofRegions regions count = .ok layout) ↔ WellNested regions count) ∧
      (count < 2 ^ 64 → 3 * regions.length < 2 ^ 64 →
        ((∃ layout, Words.ofRegions regions count = pure layout) ↔
          WellNested regions count)) := by
  refine ⟨exists_ofRegions_iff, fun hcount hregions => ?_⟩
  rw [Words.ofRegions_eq hcount hregions, ← exists_ofRegions_iff]
  exact exists_congr fun layout => Machine.ofExcept_eq_pure_iff

/-- A finally handler in which a filtered catch and a catch of strings share their try interval. -/
def catchesInFinally : List Region :=
  [⟨.finally, 0, 2, 2, 8, none⟩, ⟨.filteredCatch, 3, 1, 7, 2, some 4⟩,
    ⟨.typedCatch .string, 3, 1, 9, 1, none⟩]

/-- A try interval from the last word on. Its end would be 1 if the sum of words wrapped around. -/
def pastLastWord : List Region := [⟨.finally, 2 ^ 64 - 1, 2, 2, 1, none⟩]

/-- The first table is well nested, and the second is refused also on words. -/
theorem ofRegions_ok_iff_wellNested_catches : WellNested catchesInFinally 11 ∧
    ¬∃ layout, Words.ofRegions pastLastWord 3 = pure layout := by
  constructor
  · exact (ofRegions_ok_iff_wellNested catchesInFinally 11).1.1 ⟨_, rfl⟩
  · rw [(ofRegions_ok_iff_wellNested pastLastWord 3).2 (by decide) (by decide)]
    intro h
    have hstop := (h.sound _ List.mem_cons_self).tryStop_le
    exact absurd hstop (by decide)

end Layout

end StackTyping
