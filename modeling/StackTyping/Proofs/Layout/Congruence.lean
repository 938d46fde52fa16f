import StackTyping.Layout.Control
import StackTyping.Proofs.Fault
import StackTyping.Proofs.Outcome

/-!
Layouts of related exception tables.

The class that a region catches plays no part in where its blocks lie. So related tables are both
refused, with related problems, or have layouts with the same blocks; and in such layouts control
may go the same ways.
-/

namespace StackTyping

variable {T : Ty → Ty → Prop} {count : Nat}

/-- What is wrong with a region is wrong with a related one. -/
lemma Region.Related.problem? {r r' : Region} (h : r.Related T r') :
    Option.Rel (RegionProblem.Related T) (r.problem? count) (r'.problem? count) := by
  have hr := h
  obtain ⟨k, a, b, c, d, filter?⟩ := r
  obtain ⟨hk⟩ := h
  unfold Region.problem?
  dsimp only
  split
  · exact .some (.emptyInterval hr)
  · split
    · -- what is asked of the filter depends on the kind of the region, which the two share
      cases hk with
      | plain _ =>
        split
        · split
          · exact .none
          · exact .some (.filterAfterHandler hr)
        · exact .some (.filterAfterHandler hr)
        · exact .some (.strayFilter hr)
        · exact .none
      | typedCatch hst =>
        cases filter? with
        | none => exact .none
        | some _ => exact .some (.strayFilter hr)
    · exact .some (.outOfBounds hr)

namespace Layout

variable {regions regions' : List Region} {layout layout' : Layout}

lemma addEntries_congr (blocks entries : List Block) :
    Agree (RegionProblem.Related T) Eq (addEntries blocks entries) (addEntries blocks entries) := by
  induction entries generalizing blocks with
  | nil => exact .ok rfl
  | cons b rest ih =>
    unfold addEntries
    split
    · exact .error (.reused b)
    · exact ih _

lemma addRegion_congr {r r' : Region} (h : r.Related T r') (blocks : List Block) :
    Agree (RegionProblem.Related T) Eq (addRegion count blocks r) (addRegion count blocks r') := by
  have hproblem : Option.Rel (RegionProblem.Related T) (r.problem? count) (r'.problem? count) :=
    h.problem?
  unfold addRegion
  rw [h.tryBlock_eq, h.entryBlocks_eq]
  generalize r.problem? count = p? at hproblem ⊢
  generalize r'.problem? count = q? at hproblem ⊢
  cases hproblem with
  | some hpq => exact .error hpq
  | none =>
    dsimp only
    split
    · exact .error (.overlapsTry _ _)
    · exact addEntries_congr _ _

lemma collect_congr (h : List.Forall₂ (Region.Related T) regions regions') (blocks : List Block) :
    Agree (RegionProblem.Related T) Eq (collect count blocks regions)
      (collect count blocks regions') := by
  induction h generalizing blocks with
  | nil => exact .ok rfl
  | cons hr _ ih =>
    refine (addRegion_congr hr blocks).bind ?_
    rintro blocks _ rfl
    exact ih blocks

/-- Layouts that differ in the classes that regions catch only. -/
inductive Related (T : Ty → Ty → Prop) (layout : Layout) : Layout → Prop where
  | intro {regions : List Region} (h : List.Forall₂ (Region.Related T) layout.regions regions) :
      Related T layout { layout with regions := regions }

lemma ofRegions_congr (h : List.Forall₂ (Region.Related T) regions regions') :
    Agree (RegionProblem.Related T) (Related T) (ofRegions regions count)
      (ofRegions regions' count) := by
  refine (collect_congr h []).bind ?_
  rintro blocks _ rfl
  split
  · exact .error (.crossing _ _)
  · exact .ok ⟨h⟩

/-! ### Control -/

namespace Related

lemma count_eq (h : layout.Related T layout') : layout.count = layout'.count := by
  cases h
  rfl

lemma innermost_eq (h : layout.Related T layout') (i : Nat) :
    layout.innermost i = layout'.innermost i := by
  cases h
  rfl

lemma enclosing_eq (h : layout.Related T layout') (b : Block) :
    layout.enclosing b = layout'.enclosing b := by
  cases h
  rfl

lemma climbs_eq (h : layout.Related T layout') (target : Nat) (goal b : Block) :
    layout.climbs target goal b = layout'.climbs target goal b := by
  fun_induction climbs layout target goal b with
  | case1 b ih =>
    conv_rhs => rw [climbs]
    rw [← h.enclosing_eq]
    by_cases htry : (layout.enclosing b).isTry
    · rw [dif_pos htry, dif_pos htry, ih htry]
    · rw [dif_neg htry, dif_neg htry]

lemma checkBranch_congr (h : layout.Related T layout') (source target : Nat) :
    Agree (Fault.Related T) Eq (layout.checkBranch source target)
      (layout'.checkBranch source target) := by
  refine .check ?_ (.plain rfl)
  unfold canBranch entersFrom
  rw [h.count_eq, h.innermost_eq, h.innermost_eq, h.climbs_eq]

lemma checkLeave_congr (h : layout.Related T layout') (source target : Nat) :
    Agree (Fault.Related T) Eq (layout.checkLeave source target)
      (layout'.checkLeave source target) := by
  refine .check ?_ (.plain rfl)
  unfold canLeave entersFrom
  dsimp only
  rw [h.count_eq, h.innermost_eq, h.innermost_eq, h.climbs_eq, h.climbs_eq, h.enclosing_eq]

lemma checkPlace_congr {instr instr' : Instr} (h : layout.Related T layout')
    (hinstr : instr.Related T instr') (settings : Settings) (i : Nat) :
    Agree (Fault.Related T) Eq (layout.checkPlace settings i instr)
      (layout'.checkPlace settings i instr') := by
  unfold checkPlace
  rw [h.innermost_eq, hinstr.mnemonic_eq]
  cases hinstr with
  | @plain instr hplain _ =>
    cases instr with
    | endfinally | endfilter | rethrow | ret => exact .check rfl (.plain rfl)
    | leave target => exact h.checkLeave_congr i target
    | _ => exact .ok rfl
  | _ => exact .ok rfl

lemma endsWith_eq {kind : BlockKind} {instr instr' : Instr} (h : instr.Related T instr') :
    kind.endsWith instr = kind.endsWith instr' := by
  cases h with
  | plain _ => rfl
  | _ => cases kind <;> rfl

variable {code code' : List Instr}

lemma checkEnd_congr (h : layout.Related T layout')
    (hcode : List.Forall₂ (Instr.Related T) code code') (b : Block) :
    Agree (Fault.Related T) Eq (layout.checkEnd code b) (layout'.checkEnd code' b) := by
  have hlast := getElem?_rel hcode (b.span.stop - 1)
  unfold checkEnd
  dsimp only
  rw [h.innermost_eq]
  split
  · exact .ok rfl
  · generalize code[b.span.stop - 1]? = last at hlast ⊢
    generalize code'[b.span.stop - 1]? = last' at hlast ⊢
    cases hlast with
    | none => exact .error (.plain rfl)
    | some hinstr =>
      dsimp only
      rw [hinstr.mnemonic_eq]
      exact .check (endsWith_eq hinstr) (.plain rfl)

lemma checkEnds_congr (h : layout.Related T layout')
    (hcode : List.Forall₂ (Instr.Related T) code code') :
    Agree (Fault.Related T) Eq (layout.checkEnds code) (layout'.checkEnds code') := by
  have hblocks : layout.blocks = layout'.blocks := by
    cases h
    rfl
  unfold checkEnds
  rw [← hblocks]
  induction layout.blocks with
  | nil => exact .ok rfl
  | cons b rest ih => exact (h.checkEnd_congr hcode b).bind fun _ _ _ => ih

lemma startsTry_eq (h : layout.Related T layout') (i : Nat) :
    layout.startsTry i = layout'.startsTry i := by
  obtain ⟨hregions⟩ := h
  unfold startsTry
  dsimp only
  generalize layout.regions = regions at hregions ⊢
  induction hregions with
  | nil => rfl
  | cons hr _ ih =>
    obtain ⟨hk⟩ := hr
    rw [List.any_cons, List.any_cons, ih]

end Related

end Layout

lemma Catalog.Corresponds.exceptionAt? {cat cat' : Catalog} {layout layout' : Layout}
    (h : Corresponds T cat cat') (hlayout : layout.Related T layout') (i : Nat) :
    Option.Rel (Slot.Related T) (layout.exceptionAt? cat i) (layout'.exceptionAt? cat' i) := by
  obtain ⟨hregions⟩ := hlayout
  unfold Layout.exceptionAt?
  dsimp only
  generalize layout.regions = regions at hregions ⊢
  induction hregions with
  | nil => exact .none
  | @cons r r' _ _ hr _ ih =>
    have hexception := h.exception hr
    obtain ⟨hk⟩ := hr
    rw [List.findSome?_cons, List.findSome?_cons]
    dsimp only
    by_cases hhandler : r.handlerStart == i
    · rw [if_pos hhandler, if_pos hhandler]
      exact .some hexception
    · rw [if_neg hhandler, if_neg hhandler]
      by_cases hfilter : r.filterStart? == some i
      · rw [if_pos hfilter]
        exact .some (Slot.related_declared h.object)
      · rw [if_neg hfilter]
        exact ih

end StackTyping
