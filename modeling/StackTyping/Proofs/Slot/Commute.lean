import Mathlib.Data.List.Zip
import StackTyping.Proofs.Catalog.Naming
import StackTyping.Proofs.Slot.Merge
import StackTyping.Proofs.Slot.Narrowing
import StackTyping.Proofs.Slot.Order

/-!
Merging does not depend on the order of the two slots.

This holds of every catalog that can be built, with types of any kind and any bases, if their names
are valid. Two searches look lopsided. The one for a shared interface goes through the interfaces of
one type only; but that is the type with the smaller text, and no other type has the text of an
interface. The one for a shared base looks at the top of one chain only; but where the chains agree
at all, they start at the same type.
-/

namespace StackTyping

variable {cat : Catalog} {a b u : Slot} {s t v x y : Ty}

/-! ### The rules of merging as equations -/

namespace Slot

lemma merge_null_left (ha : a.ty = none) :
    a.merge cat b = if b.isInline cat then .error (.noCommonType a b) else .ok b := by
  obtain ⟨_, _⟩ := a
  cases ha
  rw [merge]

lemma merge_null_right (ha : a.ty = some s) (hb : b.ty = none) :
    a.merge cat b = if a.isInline cat then .error (.noCommonType a b) else .ok a := by
  obtain ⟨_, _⟩ := a
  obtain ⟨_, _⟩ := b
  cases ha
  cases hb
  rw [merge]

lemma merge_same (ha : a.ty = some s) (hb : b.ty = some t)
    (h : (a.weak cat).equiv cat (b.weak cat)) : a.merge cat b = .ok (a.weak cat) := by
  obtain ⟨_, _⟩ := a
  obtain ⟨_, _⟩ := b
  cases ha
  cases hb
  rw [merge]
  dsimp only
  rw [if_pos h]

lemma merge_rigid (ha : a.ty = some s) (hb : b.ty = some t)
    (h : (a.weak cat).equiv cat (b.weak cat) = false) (hr : a.isRigid cat || b.isRigid cat) :
    a.merge cat b = .error (.noCommonType a b) := by
  obtain ⟨_, _⟩ := a
  obtain ⟨_, _⟩ := b
  cases ha
  cases hb
  rw [merge]
  dsimp only
  rw [if_neg (by simp [h]), if_pos hr]

/-- Two slots involve `null`, have one weak form, are rigid, or merge in a supertype. -/
lemma merge_cases (cat : Catalog) (a b : Slot) :
    a.ty = none ∨ (∃ s, a.ty = some s ∧ b.ty = none) ∨
      ∃ s t, a.ty = some s ∧ b.ty = some t ∧
        ((a.weak cat).equiv cat (b.weak cat) ∨
          (a.weak cat).equiv cat (b.weak cat) = false ∧ (a.isRigid cat || b.isRigid cat) ∨
          Apart cat a b s t) := by
  cases ha : a.ty with
  | none => exact Or.inl rfl
  | some s =>
    cases hb : b.ty with
    | none => exact Or.inr (Or.inl ⟨s, rfl, rfl⟩)
    | some t =>
      refine Or.inr (Or.inr ⟨s, t, rfl, rfl, ?_⟩)
      cases he : (a.weak cat).equiv cat (b.weak cat) with
      | true => exact Or.inl rfl
      | false =>
        cases hr : a.isRigid cat || b.isRigid cat with
        | true => exact Or.inr (Or.inl ⟨rfl, rfl⟩)
        | false =>
          obtain ⟨hfa, hfb⟩ := Bool.or_eq_false_iff.1 hr
          exact Or.inr (Or.inr ⟨ha, hb, he, hfa, hfb⟩)

namespace Apart

lemma symm (h : Apart cat a b s t) : Apart cat b a t s := by
  refine ⟨h.right_ty, h.left_ty, Bool.eq_false_iff.2 fun heq => ?_, h.right_free, h.left_free⟩
  have hne := h.differ
  rw [equiv_symm heq] at hne
  cases hne

lemma merge_arrays (h : Apart cat a b s t) (hs : cat.kind s = .array x)
    (ht : cat.kind t = .array y) :
    a.merge cat b = (if cat.isBoxable x || cat.isBoxable y then .ok (declared .arrayBase)
      else do
        let element ← merge cat (declared x) (declared y)
        match element.ty with
        | some e => .ok (declared (.array e))
        | none => .error (.noCommonType a b)) := by
  obtain ⟨ha, hb, hne, hfa, hfb⟩ := h
  obtain ⟨_, _⟩ := a
  obtain ⟨_, _⟩ := b
  cases ha
  cases hb
  rw [merge]
  dsimp only
  rw [if_neg (by simp [hne]), if_neg (by simp [hfa, hfb])]
  split
  · rename_i hs' ht'
    rw [hs] at hs'
    rw [ht] at ht'
    cases hs'
    cases ht'
    rfl
  · rename_i hna
    exact absurd ht (hna x y hs)

lemma merge_named (h : Apart cat a b s t) (hna : ¬(cat.isArray s ∧ cat.isArray t)) :
    a.merge cat b = (if cat.isInterface s || cat.isInterface t then
        .ok (declared (cat.sharedInterface s t))
      else
        match cat.sharedBase? s t with
        | some u => .ok (boxedOf cat u)
        | none => .error (.noCommonType a b)) := by
  obtain ⟨ha, hb, hne, hfa, hfb⟩ := h
  obtain ⟨_, _⟩ := a
  obtain ⟨_, _⟩ := b
  cases ha
  cases hb
  rw [merge]
  dsimp only
  rw [if_neg (by simp [hne]), if_neg (by simp [hfa, hfb])]
  split
  · rename_i hs ht
    exact absurd ⟨Catalog.isArray_iff.2 ⟨_, hs⟩, Catalog.isArray_iff.2 ⟨_, ht⟩⟩ hna
  · rfl

end Apart

end Slot

/-! ### The two searches -/

namespace Catalog

/-- Types with different texts share one interface, whichever comes first. -/
lemma sharedInterface_comm (h : cat.nameOf s ≠ cat.nameOf t) :
    cat.sharedInterface s t = cat.sharedInterface t s := by
  unfold sharedInterface
  by_cases hlt : cat.nameOf t < cat.nameOf s
  · rw [if_pos hlt, if_neg (String.lt_asymm hlt)]
  · have hgt : cat.nameOf s < cat.nameOf t := by
      by_contra hge
      exact h (String.le_antisymm (String.not_lt.1 hlt) (String.not_lt.1 hge))
    rw [if_neg hlt, if_pos hgt]

lemma Named.nameOf_ne (h : Named cat) (hnames : cat.NamesValid)
    (hst : cat.isInterface s ∨ cat.isInterface t) (hne : s ≠ t) :
    cat.nameOf s ≠ cat.nameOf t := by
  intro heq
  rcases hst with hs | ht
  · obtain ⟨name, hname⟩ := h.ownName?_of_interface (isInterface_iff.1 hs)
    exact hne (h.eq_of_nameOf_eq (hnames.isValid hname) hname heq)
  · obtain ⟨name, hname⟩ := h.ownName?_of_interface (isInterface_iff.1 ht)
    exact hne (h.eq_of_nameOf_eq (hnames.isValid hname) hname heq.symm).symm

/-- The chains of two types agree up to a pair of types, from whichever side one looks. -/
lemma takeWhile_zip_swap (l m : List Ty) :
    (m.zip l).takeWhile (fun p => cat.equiv p.1 p.2)
      = ((l.zip m).takeWhile fun p => cat.equiv p.1 p.2).map Prod.swap := by
  rw [← List.zip_swap, List.takeWhile_map]
  congr 2
  funext p
  exact Bool.eq_iff_iff.2 ⟨equiv_symm, equiv_symm⟩

/-- Chains that agree somewhere start at the same type, if one starts at a top. -/
lemma head?_eq_of_mem_takeWhile {l m : List Ty} {p : Ty × Ty} (hl : l.head?.any cat.isTop)
    (hp : p ∈ (l.zip m).takeWhile fun p => cat.equiv p.1 p.2) : m.head? = l.head? := by
  cases l with
  | nil => cases hl
  | cons s l =>
    cases m with
    | nil => cases hp
    | cons t m =>
      rw [List.zip_cons_cons, List.takeWhile_cons] at hp
      split at hp
      · rename_i hst
        have hk : cat.kind s = .classType := by
          rw [List.head?_cons, Option.any_some, isTop, Bool.and_eq_true, beq_iff_eq] at hl
          exact hl.1
        -- a top has no element, so no other type is equivalent to it
        have he : cat.element? s = none := by rw [element?, hk]; rfl
        exact congrArg some (eq_of_equiv (equiv_symm hst) he)
      · cases hp

lemma sharedBase?_symm (h : cat.sharedBase? s t = some v) :
    ∃ w, cat.sharedBase? t s = some w ∧ cat.equiv v w := by
  unfold sharedBase? at h ⊢
  dsimp only at h ⊢
  split at h
  · rename_i htop
    obtain ⟨⟨_, w⟩, hlast, rfl⟩ := Option.map_eq_some_iff.1 h
    have hmem := List.mem_of_getLast? hlast
    have hvw := List.all_eq_true.1 List.all_takeWhile _ hmem
    refine ⟨w, ?_, hvw⟩
    rw [head?_eq_of_mem_takeWhile htop hmem, if_pos htop, takeWhile_zip_swap, List.getLast?_map,
      hlast]
    rfl
  · cases h

end Catalog

/-! ### Both orders -/

namespace Slot

/-- Well-boxed slots of equivalent types that are no inline values are equivalent, so they are not
apart. -/
lemma Apart.not_equiv (h : Apart cat a b s t) (ha : a.WellBoxed cat) (hb : b.WellBoxed cat) :
    ¬cat.equiv s t := by
  intro hst
  obtain ⟨hia, hib⟩ := h.not_inline
  have hboxed : a.boxed = b.boxed := by
    rw [boxed_eq_isBoxable ha hia h.left_ty, boxed_eq_isBoxable hb hib h.right_ty,
      Catalog.isBoxable_congr hst]
  have hab : a.equiv cat b := equiv_iff.2 ⟨hboxed, Or.inr ⟨s, t, h.left_ty, h.right_ty, hst⟩⟩
  have hne := h.differ
  rw [weak_congr hab] at hne
  cases hne

lemma Apart.ne (h : Apart cat a b s t) (ha : a.WellBoxed cat) (hb : b.WellBoxed cat) : s ≠ t := by
  rintro rfl
  exact h.not_equiv ha hb (Catalog.equiv_refl s)

lemma Apart.merge_named_symm (hcat : cat.Named) (hnames : cat.NamesValid) (h : Apart cat a b s t)
    (ha : a.WellBoxed cat) (hb : b.WellBoxed cat) (hna : ¬(cat.isArray s ∧ cat.isArray t))
    (hu : a.merge cat b = .ok u) : ∃ v, b.merge cat a = .ok v ∧ u.equiv cat v := by
  rw [h.merge_named hna] at hu
  rw [h.symm.merge_named (mt And.symm hna), Bool.or_comm]
  split at hu
  · rename_i hint
    cases hu
    have hne := hcat.nameOf_ne hnames (Bool.or_eq_true_iff.1 hint) (h.ne ha hb)
    refine ⟨declared (cat.sharedInterface t s), if_pos hint, ?_⟩
    rw [Catalog.sharedInterface_comm hne]
    exact equiv_refl _
  · rename_i hint
    split at hu
    · rename_i v hv
      cases hu
      obtain ⟨w, hw, hvw⟩ := Catalog.sharedBase?_symm hv
      refine ⟨boxedOf cat w, ?_, ?_⟩
      · rw [if_neg hint, hw]
      · exact equiv_iff.2 ⟨Catalog.isBoxable_congr hvw, Or.inr ⟨v, w, rfl, rfl, hvw⟩⟩
    · cases hu

lemma Apart.merge_arrays_symm (h : Apart cat a b s t) (hs : cat.kind s = .array x)
    (ht : cat.kind t = .array y)
    (hxy : ∀ e, merge cat (declared x) (declared y) = .ok e →
      ∃ f, merge cat (declared y) (declared x) = .ok f ∧ e.equiv cat f)
    (hu : a.merge cat b = .ok u) : ∃ v, b.merge cat a = .ok v ∧ u.equiv cat v := by
  rw [h.merge_arrays hs ht] at hu
  rw [h.symm.merge_arrays ht hs, Bool.or_comm]
  split at hu
  · rename_i hval
    cases hu
    exact ⟨_, if_pos hval, equiv_refl _⟩
  · rename_i hval
    obtain ⟨e, he, hu⟩ := bind_eq_ok_iff.1 hu
    obtain ⟨f, hf, hef⟩ := hxy e he
    obtain ⟨-, ⟨hn, -⟩ | ⟨v, w, hv, hw, hvw⟩⟩ := equiv_iff.1 hef
    · rw [hn] at hu
      cases hu
    · rw [hv] at hu
      cases hu
      have hequiv : cat.equiv (.array v) (.array w) := (Catalog.equiv_array_iff rfl rfl).2 hvw
      refine ⟨declared (.array w), ?_, equiv_iff.2 ⟨rfl, Or.inr ⟨_, _, rfl, rfl, hequiv⟩⟩⟩
      rw [if_neg hval, hf]
      refine bind_eq_ok_iff.2 ⟨f, rfl, ?_⟩
      rw [hw]

lemma merge_null_symm (ha : a.WellBoxed cat) (hb : b.WellBoxed cat) (hn : a.ty = none)
    (hu : a.merge cat b = .ok u) : ∃ v, b.merge cat a = .ok v ∧ u.equiv cat v := by
  rw [merge_null_left hn] at hu
  split at hu
  · cases hu
  · rename_i hib
    cases hu
    cases hb' : b.ty with
    | none =>
      -- each order gives the other `null`, and there is only one well-boxed `null`
      have hab : b = a := (eq_null hb hb').trans (eq_null ha hn).symm
      refine ⟨a, ?_, by rw [hab]; exact equiv_refl a⟩
      rw [merge_null_left hb', if_neg (Bool.eq_false_iff.1 (isInline_of_none hn))]
    | some t => exact ⟨b, by rw [merge_null_right hb' hn, if_neg hib], equiv_refl b⟩

/-- Well-boxed slots that merge also merge in the other order, in an equivalent slot. -/
lemma merge_symm (hcat : cat.Named) (hnames : cat.NamesValid) {a b u : Slot} (ha : a.WellBoxed cat)
    (hb : b.WellBoxed cat) (hu : a.merge cat b = .ok u) :
    ∃ v, b.merge cat a = .ok v ∧ u.equiv cat v := by
  rcases merge_cases cat a b with hn | ⟨s, hs, hn⟩ | ⟨s, t, hs, ht, hsame | ⟨hne, hr⟩ | hab⟩
  · exact merge_null_symm ha hb hn hu
  · rw [merge_null_right hs hn] at hu
    split at hu
    · cases hu
    · rename_i hia
      cases hu
      exact ⟨a, by rw [merge_null_left hn, if_neg hia], equiv_refl a⟩
  · rw [merge_same hs ht hsame] at hu
    cases hu
    exact ⟨b.weak cat, merge_same ht hs (equiv_symm hsame), hsame⟩
  · rw [merge_rigid hs ht hne hr] at hu
    cases hu
  · -- only arrays need the elements, whose ranks are smaller
    by_cases harr : cat.isArray s ∧ cat.isArray t
    · obtain ⟨x, hx⟩ := Catalog.isArray_iff.1 harr.1
      obtain ⟨y, hy⟩ := Catalog.isArray_iff.1 harr.2
      have hlt : ((declared x).ty.map Ty.rank).getD 0 < (a.ty.map Ty.rank).getD 0 := by
        simpa [declared, hs] using Catalog.rank_array_lt hx
      exact hab.merge_arrays_symm hx hy
        (fun e he => merge_symm hcat hnames (wellBoxed_declared x) (wellBoxed_declared y) he) hu
    · exact hab.merge_named_symm hcat hnames ha hb harr hu
termination_by (a.ty.map Ty.rank).getD 0
decreasing_by assumption

end Slot

/-- **Merging is symmetric** in every catalog that can be built with valid names: two slots merge in
one order just when they merge in the other, and in equivalent slots. -/
theorem merge_comm (hcat : cat.Built) (hnames : cat.NamesValid) (ha : a.WellBoxed cat)
    (hb : b.WellBoxed cat) :
    (a.merge cat b).isOk = (b.merge cat a).isOk ∧
      ∀ u v, a.merge cat b = .ok u → b.merge cat a = .ok v → u.equiv cat v := by
  have hnamed := hcat.named
  constructor
  · refine Bool.eq_iff_iff.2 ⟨fun h => ?_, fun h => ?_⟩
    · obtain ⟨u, hu⟩ := isOk_iff.1 h
      obtain ⟨v, hv, -⟩ := Slot.merge_symm hnamed hnames ha hb hu
      exact isOk_iff.2 ⟨v, hv⟩
    · obtain ⟨u, hu⟩ := isOk_iff.1 h
      obtain ⟨v, hv, -⟩ := Slot.merge_symm hnamed hnames hb ha hu
      exact isOk_iff.2 ⟨v, hv⟩
  · intro u v hu hv
    obtain ⟨w, hw, huw⟩ := Slot.merge_symm hnamed hnames ha hb hu
    rw [hv] at hw
    cases hw
    exact huw

/-- An interface and a class that implements it. -/
def pluginCatalog : Catalog :=
  let cat := (Catalog.core.declareInterface ⟨"N.Plugin"⟩).2
  let cat := (cat.declareClass ⟨"N.Host"⟩ EntryId.object).2
  cat.implement 24 23

lemma built_pluginCatalog : pluginCatalog.Built := by
  have hplugin := Catalog.Built.core.apply (.declareInterface ⟨"N.Plugin"⟩) (by decide +kernel)
  have hhost := hplugin.apply (.declareClass ⟨"N.Host"⟩ EntryId.object) (by decide +kernel)
  exact hhost.apply (.implement 24 23) (by decide +kernel)

/-- The class meets its interface in the interface, from either side. -/
theorem merge_comm_plugin :
    (Slot.declared (.entry 24)).merge pluginCatalog (.declared (.entry 23))
        = .ok (.declared (.entry 23)) ∧
      ∃ v, (Slot.declared (.entry 23)).merge pluginCatalog (.declared (.entry 24)) = .ok v ∧
        (Slot.declared (.entry 23)).equiv pluginCatalog v := by
  have hu : (Slot.declared (.entry 24)).merge pluginCatalog (.declared (.entry 23))
      = .ok (.declared (.entry 23)) := by
    decide +kernel
  obtain ⟨hok, hequiv⟩ := merge_comm built_pluginCatalog (by decide +kernel)
    (Slot.wellBoxed_declared (.entry 24)) (Slot.wellBoxed_declared (.entry 23))
  rw [hu] at hok
  obtain ⟨v, hv⟩ := isOk_iff.1 hok.symm
  exact ⟨hu, v, hv, hequiv _ v hu hv⟩

end StackTyping
