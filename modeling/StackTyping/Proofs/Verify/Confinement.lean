import Mathlib.Logic.Relation
import StackTyping.Proofs.Layout.Dispatch
import StackTyping.Proofs.Verify.Table

/-!
Where control can get to.

Every edge of an accepted body is one that the layout allows. So no path enters a handler or filter
from outside, and no path gets out of a finally handler or a filter, however the blocks are nested
and whichever of them share an interval. These are entered by exceptions and exited by
`endfinally`, `endfilter` and exceptions, none of which is an edge.
-/

namespace StackTyping

namespace Layout.Nested

variable {layout : Layout} {instr : Instr} {outer : Block} {source target : Nat}
  (h : layout.Nested)
include h

lemma contains_of_allows (houter : outer ∈ layout.blocks) (hkind : outer.isTry = false)
    (hallows : layout.allows instr source target) (htarget : outer.span.contains target) :
    outer.span.contains source :=
  h.contains_of_path houter hkind (path_of_allows hallows) htarget

lemma contains_target_of_allows (houter : outer ∈ layout.blocks) (hkind : outer.isTry = false)
    (hcatch : outer.kind ≠ .catchBlock) (hallows : layout.allows instr source target)
    (hsource : outer.span.contains source) : outer.span.contains target :=
  h.contains_target_of_path houter hkind hcatch (path_of_allows hallows) hsource

end Layout.Nested

namespace Body

/-- Control may go from one position to another: to a target that the instruction names, by `leave`
or any other jump, or to the next instruction. -/
def Edge (body : Body) (i j : Nat) : Prop :=
  ∃ instr, body.code[i]? = some instr ∧ j ∈ instr.successors i

def Leads (body : Body) : Nat → Nat → Prop := Relation.ReflTransGen body.Edge

end Body

variable {cat : Catalog} {body : Body} {settings : Settings} {typing : Typing} {i j : Nat}

/-- Every edge of an accepted body is allowed by its layout. -/
lemma exists_layout_of_verify (h : verify cat body settings = .ok typing) :
    ∃ layout : Layout, layout.Nested ∧ layout.regions = body.regions ∧
      ∀ i j, body.Edge i j → ∃ instr, layout.allows instr i j := by
  obtain ⟨-, layout, hregions, -, htable⟩ := tabulates_of_verify h
  refine ⟨layout, (Layout.nested_of_ofRegions hregions).1,
    (Layout.dispatches_of_ofRegions hregions).regions_eq, ?_⟩
  rintro i j ⟨instr, hinstr, hj⟩
  obtain ⟨_, _, hpass⟩ := htable.pass hinstr
  exact ⟨instr, hpass.paths j hj⟩

/-- **Handlers and filters are entered by exceptions alone, and finally handlers and filters are
not escaped**, on any path through an accepted body. -/
theorem confined_of_verify (h : verify cat body settings = .ok typing) (hpath : body.Leads i j) :
    ∀ r ∈ body.regions, ∀ b ∈ r.entryBlocks,
      (b.span.contains j → b.span.contains i) ∧
        (b.kind = .finallyBlock ∨ b.kind = .filterBlock →
          b.span.contains i → b.span.contains j) := by
  obtain ⟨layout, hnested, hregions, hedges⟩ := exists_layout_of_verify h
  intro r hr b hb
  have hmem : b ∈ layout.blocks := hnested.entries r (hregions ▸ hr) b hb
  have htry := Region.not_isTry_of_mem_entryBlocks hb
  -- one edge at a time, from the last back to the first and then the other way
  constructor
  · intro hj
    induction hpath with
    | refl => exact hj
    | tail _ hedge ih =>
      obtain ⟨instr, hallows⟩ := hedges _ _ hedge
      exact ih (hnested.contains_of_allows hmem htry hallows hj)
  · intro hkind hi
    have hcatch : b.kind ≠ .catchBlock := by rcases hkind with hk | hk <;> simp [hk]
    induction hpath with
    | refl => exact hi
    | tail _ hedge ih =>
      obtain ⟨instr, hallows⟩ := hedges _ _ hedge
      exact hnested.contains_target_of_allows hmem htry hcatch hallows ih

/-- A finally handler that runs protected code with a filtered catch of its own. -/
def catchInFinally : Body where
  name := "catchInFinally"
  signature := ⟨.object, [], .declared (.entry EntryId.void), true, .direct⟩
  locals := []
  code :=
    [.nop, .leave 10, .pop, .leave 9, .pop, .ldc .i4, .endfilter, .pop, .leave 9, .endfinally,
      .ret]
  regions := [⟨.finally, 0, 2, 2, 8, none⟩, ⟨.filteredCatch, 3, 1, 7, 2, some 4⟩]

/-- The way from the start of the inner handler exits that handler and stays in the outer one. -/
theorem confined_of_verify_catch :
    verify .core catchInFinally {}
        = .ok ⟨#[[], [], [.declared .object], [], [.declared .object], [], [.ofPrimitive .int32],
          [.declared .object], [], [], []]⟩ ∧
      catchInFinally.Leads 7 9 ∧
      ∀ r ∈ catchInFinally.regions, ∀ b ∈ r.entryBlocks,
        (b.span.contains 9 → b.span.contains 7) ∧
          (b.kind = .finallyBlock ∨ b.kind = .filterBlock →
            b.span.contains 7 → b.span.contains 9) := by
  have h : verify .core catchInFinally {}
      = .ok ⟨#[[], [], [.declared .object], [], [.declared .object], [], [.ofPrimitive .int32],
        [.declared .object], [], [], []]⟩ := by
    decide +kernel
  have hnext : catchInFinally.Edge 7 8 := ⟨.pop, rfl, by decide⟩
  have hleave : catchInFinally.Edge 8 9 := ⟨.leave 9, rfl, by decide⟩
  have hpath : catchInFinally.Leads 7 9 := .tail (.single hnext) hleave
  exact ⟨h, hpath, confined_of_verify h hpath⟩

end StackTyping
