import StackTyping.Proofs.Slot.Commute

/-!
The merge of two slots is the least slot that takes both, among those that mention no interface.

A class above two types lies on both chains of bases. Each chain starts with the chain of that
class, so the chains agree at least that far and the last type on which they agree extends the
class. Arrays have their elements to compare. An interface has no class above it but the top one, so
it does not matter which shared interface a merge takes.
-/

namespace StackTyping

variable {cat : Catalog} {a b u v : Slot} {s t w x y z e : Ty}

/-! ### The last shared base -/

namespace Catalog

lemma getLast?_baseChain (t : Ty) : (cat.baseChain t).getLast? = some t := by
  rw [baseChain]
  split <;> simp

lemma pairwise_baseChain (t : Ty) :
    (cat.baseChain t).Pairwise fun earlier later => cat.Extends later earlier := by
  fun_induction baseChain cat t with
  | case1 t b hb ih =>
    refine List.pairwise_append.2 ⟨ih, List.pairwise_singleton _ _, fun c hc d hd => ?_⟩
    rw [List.mem_singleton.1 hd]
    exact .head hb (mem_baseChain.1 hc)
  | case2 t _ => exact List.pairwise_singleton _ _

lemma isPrefix_baseChain (h : cat.Extends s t) : cat.baseChain t <+: cat.baseChain s := by
  induction h using Relation.ReflTransGen.head_induction_on with
  | refl => exact List.prefix_rfl
  | head hb _ ih =>
    rw [baseChain_of_some hb]
    exact ih.trans (List.prefix_append _ _)

/-- **The last shared base is the least**: it extends every type that both types extend. -/
lemma extends_sharedBase (hw : cat.sharedBase? s t = some w) (hs : cat.Extends s x)
    (ht : cat.Extends t x) : cat.Extends w x := by
  unfold sharedBase? at hw
  dsimp only at hw
  split at hw
  · obtain ⟨pair, hlast, rfl⟩ := Option.map_eq_some_iff.1 hw
    obtain ⟨l, hl⟩ := isPrefix_baseChain hs
    obtain ⟨m, hm⟩ := isPrefix_baseChain ht
    have hself : ∀ p ∈ (cat.baseChain x).zip (cat.baseChain x), cat.equiv p.1 p.2 := by
      intro p hp
      rw [List.zip_eq_zipWith, List.zipWith_self] at hp
      obtain ⟨c, -, rfl⟩ := List.mem_map.1 hp
      exact equiv_refl c
    rw [← hl, ← hm, List.zip_append rfl, List.takeWhile_append_of_pos hself,
      List.getLast?_append] at hlast
    cases hrest : ((l.zip m).takeWhile fun p => cat.equiv p.1 p.2).getLast? with
    | some p =>
      -- the chains agree beyond `x`, on a type that comes later in the first chain
      rw [hrest] at hlast
      cases hlast
      have hmem := (List.takeWhile_sublist _).mem (List.mem_of_getLast? hrest)
      have hpairs : (cat.baseChain s).Pairwise _ := pairwise_baseChain s
      rw [← hl] at hpairs
      exact (List.pairwise_append.1 hpairs).2.2 x (mem_baseChain.2 .refl) _
        (List.of_mem_zip hmem).1
    | none =>
      rw [hrest, Option.none_or] at hlast
      have hfst := congrArg (Option.map Prod.fst) hlast
      rw [← List.getLast?_map, List.map_fst_zip (Nat.le_refl _), getLast?_baseChain] at hfst
      cases hfst
      exact .refl
  · cases hw

/-- Arrays of values have no array above them but equivalent ones. -/
lemma equiv_of_subtype_values (hs : cat.kind s = .array x) (ht : cat.kind t = .array y)
    (hval : cat.isBoxable x ∨ cat.isBoxable y) (hst : cat.subtype s t) : cat.equiv x y := by
  rcases (subtype_array_iff hs ht).1 hst with heq | ⟨hrx, hry, -⟩
  · exact heq
  · simp only [isReferenceElement, Bool.and_eq_true, Bool.not_eq_true'] at hrx hry
    rw [hrx.1, hry.1] at hval
    simp at hval

lemma not_isArray_of_values (hs : cat.kind s = .array x) (ht : cat.kind t = .array y)
    (hval : cat.isBoxable x ∨ cat.isBoxable y) (hne : ¬cat.equiv s t) (hsw : cat.subtype s w)
    (htw : cat.subtype t w) : ¬cat.isArray w := by
  intro hw
  obtain ⟨z, hz⟩ := isArray_iff.1 hw
  rw [equiv_array_iff hs ht] at hne
  rcases hval with hx | hy
  · have hxz := equiv_of_subtype_values hs hz (Or.inl hx) hsw
    have hyz := equiv_of_subtype_values ht hz (Or.inr (isBoxable_congr hxz ▸ hx)) htw
    exact hne (equiv_trans hxz (equiv_symm hyz))
  · have hyz := equiv_of_subtype_values ht hz (Or.inl hy) htw
    have hxz := equiv_of_subtype_values hs hz (Or.inr (isBoxable_congr hyz ▸ hy)) hsw
    exact hne (equiv_trans hxz (equiv_symm hyz))

namespace Lawful

variable (h : Lawful cat)
include h

lemma isExact_of_subtype (hs : cat.isExact s = false) (hst : cat.subtype s t) :
    cat.isExact t = false := by
  by_contra ht
  have heq := h.equiv_of_subtype_exact hst (Or.inr (Bool.not_eq_false _ ▸ ht))
  rw [isExact_congr heq] at hs
  exact ht hs

lemma eq_object_or_extends (hs : cat.isExact s = false) (ht : ¬cat.isArray t)
    (hint : cat.kind t ≠ .interface) (hst : cat.subtype s t) : t = .object ∨ cat.Extends s t := by
  rcases (h.subtype_iff fun ha => ht ha.2).1 hst with heq | ⟨-, -, hobj | hinh⟩
  · rcases equiv_cases heq with rfl | ⟨x, y, -, hy, -⟩ | ⟨x, y, hx, -, -⟩
    · exact Or.inr .refl
    · exact absurd (isArray_iff.2 ⟨y, hy⟩) ht
    · rw [isExact_of_pointer hx] at hs
      cases hs
  · exact Or.inl hobj
  · exact Or.inr (h.extends_of_inherits hinh hint)

lemma eq_object_of_interface (hs : cat.kind s = .interface) (hint : cat.kind t ≠ .interface)
    (hst : cat.subtype s t) : t = .object := by
  have ht : ¬cat.isArray t := fun ht => by
    have hsa := h.isArray_of_subtype hst ht
    rw [isArray, hs] at hsa
    cases hsa
  rcases h.eq_object_or_extends (isExact_of_kind (Or.inr hs)).1 ht hint hst with hobj | hext
  · exact hobj
  · exact absurd (h.kind_of_inherits_interface hext.inherits hs) hint

/-- A supertype of both types that mentions no interface is above the interface they share. -/
lemma sharedInterface_subtype (hs : cat.isExact s = false) (ht : cat.isExact t = false)
    (hst : cat.isInterface s ∨ cat.isInterface t) (hint : cat.kind w ≠ .interface)
    (hsw : cat.subtype s w) (htw : cat.subtype t w) :
    cat.subtype (cat.sharedInterface s t) w := by
  have hobj : w = .object := by
    rcases hst with hs | ht
    · exact h.eq_object_of_interface (isInterface_iff.1 hs) hint hsw
    · exact h.eq_object_of_interface (isInterface_iff.1 ht) hint htw
  rw [hobj]
  exact h.subtype_object (h.isExact_of_subtype hs (h.subtype_sharedInterface hs ht).1)

/-- A supertype of both types that mentions no interface is above the last base they share. -/
lemma sharedBase_subtype (hs : cat.isExact s = false) (ht : cat.isExact t = false)
    (hst : ¬(cat.isArray s ∧ cat.isArray t)) (hx : cat.sharedBase? s t = some x)
    (hint : cat.kind w ≠ .interface) (hsw : cat.subtype s w) (htw : cat.subtype t w) :
    cat.subtype x w := by
  have hw : ¬cat.isArray w := fun hw =>
    hst ⟨h.isArray_of_subtype hsw hw, h.isArray_of_subtype htw hw⟩
  have hxx := h.isExact_of_subtype hs (h.subtype_sharedBase hs ht hx).1
  rcases h.eq_object_or_extends hs hw hint hsw with rfl | hsw
  · exact h.subtype_object hxx
  rcases h.eq_object_or_extends ht hw hint htw with rfl | htw
  · exact h.subtype_object hxx
  exact h.subtype_of_extends hxx (extends_sharedBase hx hsw htw)

/-- What is above an array and no array itself is above the common array class. -/
lemma arrayBase_subtype (hs : cat.isArray s) (hw : ¬cat.isArray w) (hsw : cat.subtype s w) :
    cat.subtype .arrayBase w := by
  have hx := (isExact_of_kind (Or.inl h.kind_arrayBase)).1
  rcases (h.subtype_iff fun ha => hw ha.2).1 hsw with heq | ⟨-, hwx, rfl | hinh⟩
  · rw [isArray_congr heq] at hs
    exact absurd hs hw
  · exact h.subtype_object hx
  · rcases h.inherits_of_array hs hinh with rfl | hinh
    · exact absurd hs hw
    · exact h.subtype_of_inherits hx hwx hinh

end Lawful

end Catalog

/-! ### The merge -/

namespace Catalog.Lawful

open Slot

variable (h : Lawful cat)
include h

/-- What takes a number takes the others of its width. -/
lemma accepts_weak (hva : v.accepts cat a) : v.accepts cat (a.weak cat) := by
  rcases h.eq_ofPrimitive_or a with ⟨p, rfl⟩ | ha
  · rw [h.weak_ofPrimitive]
    have hsize : (ofPrimitive p.weak).strong cat = (ofPrimitive p).strong cat := by
      rw [h.strong_ofPrimitive, h.strong_ofPrimitive, Primitive.strong_weak]
    rcases h.accepts_iff.1 hva with he | ⟨_, -, -, hn | ⟨_, -, hi, -⟩⟩
    · exact h.accepts_iff.2 (Or.inl (hsize ▸ he))
    · cases hn
    · rw [h.isInline_ofPrimitive] at hi
      cases hi
  · rwa [weak_of_none ha]

lemma exists_supertype_of_accepts (hva : v.accepts cat a) (ha : a.ty = some s)
    (hia : a.isInline cat = false) :
    ∃ w, v.ty = some w ∧ v.isInline cat = false ∧ cat.subtype s w := by
  cases hv : v.ty with
  | some w =>
    exact ⟨w, rfl, h.not_inline_of_accepts hva hia, h.subtype_of_accepts hva hv ha hia⟩
  | none =>
    rcases h.accepts_iff.1 hva with he | ⟨w, hw, -⟩
    · obtain ⟨-, ⟨-, hn⟩ | ⟨w, _, hw, -, -⟩⟩ := Slot.equiv_iff.1 (h.equiv_of_strong_equiv he hia)
      · rw [ha] at hn
        cases hn
      · rw [hv] at hw
        cases hw
    · rw [hv] at hw
      cases hw

lemma accepts_element (hs : cat.kind s = .array x) (hw : cat.kind w = .array z)
    (hsw : cat.subtype s w) : (declared z).accepts cat (declared x) := by
  rcases (subtype_array_iff hs hw).1 hsw with heq | ⟨hrx, hrz, hxz⟩
  · exact h.accepts_of_equiv (equiv_declared_iff.2 (Catalog.equiv_symm heq))
  · exact h.accepts_of_subtype rfl (isObject_declared hrz).isInline_eq rfl
      (isObject_declared hrx).isInline_eq hxz

lemma isBoxable_of_subtype (hs : cat.isBoxable s = false) (hst : cat.subtype s t) :
    cat.isBoxable t = false := by
  by_cases hx : cat.isExact s
  · rw [← isBoxable_congr (h.equiv_of_subtype_exact hst (Or.inl hx)), hs]
  · have href : cat.isReferenceElement s := by simp [isReferenceElement, hs, hx]
    have href' := h.isReferenceElement_of_subtype href hst
    simp only [isReferenceElement, Bool.and_eq_true, Bool.not_eq_true'] at href'
    exact href'.1

lemma not_isBoxable_of_merge (hx : cat.isBoxable x = false)
    (hu : (declared x).merge cat (declared y) = .ok u) (he : u.ty = some e) :
    u.isInline cat = false ∧ cat.isBoxable e = false := by
  have hinline : (declared x).isInline cat = false := by rw [isInline_declared, hx]
  have hcovers := (h.covers_of_merges (merges_of_merge hu)).1
  have haccepts := h.accepts_of_stores (hcovers.stores he)
  have hsub := h.subtype_of_accepts haccepts he rfl hinline
  exact ⟨h.not_inline_of_accepts haccepts hinline, h.isBoxable_of_subtype hx hsub⟩

/-- Arrays merge in a reference below every common supertype, if their elements do. -/
lemma merge_arrays_le (hab : Apart cat a b s t) (ha : a.WellBoxed cat) (hb : b.WellBoxed cat)
    (hs : cat.kind s = .array x) (ht : cat.kind t = .array y)
    (hxy : ∀ z e, cat.kind w = .array z → (declared x).merge cat (declared y) = .ok e →
      (declared z).accepts cat (declared x) → (declared z).accepts cat (declared y) →
      (declared z).accepts cat e)
    (hu : a.merge cat b = .ok u) (hsw : cat.subtype s w) (htw : cat.subtype t w) :
    ∃ r, u.ty = some r ∧ u.isInline cat = false ∧ cat.subtype r w := by
  have hsa : cat.isArray s := isArray_iff.2 ⟨x, hs⟩
  rw [hab.merge_arrays hs ht] at hu
  split at hu
  -- no array lies above both, so what does lies above the common array class
  · rename_i hval
    cases hu
    have hwa := not_isArray_of_values hs ht (Bool.or_eq_true_iff.1 hval) (hab.not_equiv ha hb)
      hsw htw
    refine ⟨.arrayBase, rfl, ?_, h.arrayBase_subtype hsa hwa hsw⟩
    rw [isInline_declared, (isExact_of_kind (Or.inl h.kind_arrayBase)).2]
  · rename_i hval
    obtain ⟨hbx, -⟩ := Bool.or_eq_false_iff.1 (Bool.eq_false_iff.2 hval)
    obtain ⟨elem, helem, hu⟩ := bind_eq_ok_iff.1 hu
    split at hu <;> cases hu
    rename_i e he
    refine ⟨.array e, rfl, rfl, ?_⟩
    by_cases hwa : cat.isArray w
    · obtain ⟨z, hz⟩ := isArray_iff.1 hwa
      obtain ⟨hinline, hbe⟩ := h.not_isBoxable_of_merge hbx helem he
      have haccepts := hxy z elem hz helem (h.accepts_element hs hz hsw)
        (h.accepts_element ht hz htw)
      have hez := h.subtype_of_accepts haccepts rfl he hinline
      have hsub : cat.subtype (.array e) (.array z) := h.subtype_array_of_subtype rfl hbe hez
      exact h.subtype_of_equiv_right hsub ((equiv_array_iff rfl hz).2 (Catalog.equiv_refl z))
    · exact h.subtype_of_array rfl hsa hwa hsw

/-- Types that are not both arrays merge in a reference below every common supertype that is no
interface. -/
lemma merge_named_le (hab : Apart cat a b s t) (hna : ¬(cat.isArray s ∧ cat.isArray t))
    (hint : cat.kind w ≠ .interface) (hu : a.merge cat b = .ok u) (hsw : cat.subtype s w)
    (htw : cat.subtype t w) : ∃ r, u.ty = some r ∧ u.isInline cat = false ∧ cat.subtype r w := by
  obtain ⟨hsx, htx⟩ := hab.not_exact
  rw [hab.merge_named hna] at hu
  split at hu
  · rename_i hst
    cases hu
    have hbox := (h.subtype_sharedInterface hsx htx).2.2
    exact ⟨_, rfl, by rw [isInline_declared, hbox],
      h.sharedInterface_subtype hsx htx (Bool.or_eq_true_iff.1 hst) hint hsw htw⟩
  · split at hu <;> cases hu
    rename_i r hr
    exact ⟨r, rfl, isInline_boxedOf r, h.sharedBase_subtype hsx htx hna hr hint hsw htw⟩

/-- **Merging is least**: a slot that takes both and mentions no interface takes the merge. -/
theorem accepts_of_merge {a b u v : Slot} (ha : a.WellBoxed cat) (hb : b.WellBoxed cat)
    (hint : v.mentionsInterface cat = false) (hu : a.merge cat b = .ok u)
    (hva : v.accepts cat a) (hvb : v.accepts cat b) : v.accepts cat u := by
  rcases merge_cases cat a b with hn | ⟨s, hs, hn⟩ | ⟨s, t, hs, ht, hsame | ⟨hne, hr⟩ | hab⟩
  · rw [merge_null_left hn] at hu
    split at hu <;> cases hu
    exact hvb
  · rw [merge_null_right hs hn] at hu
    split at hu <;> cases hu
    exact hva
  · rw [merge_same hs ht hsame] at hu
    cases hu
    exact h.accepts_weak hva
  · rw [merge_rigid hs ht hne hr] at hu
    cases hu
  · -- what takes two references is a reference to a common supertype `w`
    obtain ⟨hia, hib⟩ := hab.not_inline
    obtain ⟨w, hw, hiv, hsw⟩ := h.exists_supertype_of_accepts hva hs hia
    have htw := h.subtype_of_accepts hvb hw ht hib
    rw [Slot.mentionsInterface, hw, Option.any_some] at hint
    have hle : ∃ r, u.ty = some r ∧ u.isInline cat = false ∧ cat.subtype r w := by
      by_cases harr : cat.isArray s ∧ cat.isArray t
      · obtain ⟨x, hx⟩ := isArray_iff.1 harr.1
        obtain ⟨y, hy⟩ := isArray_iff.1 harr.2
        have hlt : ((declared x).ty.map Ty.rank).getD 0 < (a.ty.map Ty.rank).getD 0 := by
          simpa [declared, hs] using rank_array_lt hx
        refine h.merge_arrays_le hab ha hb hx hy (fun z e hz he hzx hzy => ?_) hu hsw htw
        have hz : (declared z).mentionsInterface cat = false := by
          rw [Slot.mentionsInterface, declared, Option.any_some, ← mentionsInterface_array hz, hint]
        exact accepts_of_merge (wellBoxed_declared x) (wellBoxed_declared y) hz he hzx hzy
      · refine h.merge_named_le hab harr (fun hk => ?_) hu hsw htw
        rw [mentionsInterface_of_kind hk] at hint
        cases hint
    obtain ⟨r, hr, hiu, hrw⟩ := hle
    exact h.accepts_of_subtype hw hiv hr hiu hrw
termination_by (a.ty.map Ty.rank).getD 0
decreasing_by assumption

end Catalog.Lawful

/-- **The merge is the least upper bound away from interfaces**: a slot that accepts both slots and
mentions no interface accepts their merge. The two slots themselves may mention interfaces. -/
theorem merge_least {P : EntryId → Prop} (hcat : Catalog.Grown P cat) (ha : a.WellBoxed cat)
    (hb : b.WellBoxed cat) (hv : v.mentionsInterface cat = false) (hu : a.merge cat b = .ok u)
    (hva : v.accepts cat a) (hvb : v.accepts cat b) : v.accepts cat u :=
  hcat.lawful.accepts_of_merge ha hb hv hu hva hvb

/-- Arrays of arrays of strings and of exceptions meet in arrays of arrays of objects, which are
arrays of objects like both. -/
theorem merge_least_nested :
    (Slot.declared (.array (.array .string))).merge .core
        (.declared (.array (.array (.entry EntryId.exception))))
        = .ok (.declared (.array (.array .object))) ∧
      (Slot.declared (.array .object)).accepts .core (.declared (.array (.array .object))) := by
  have hu : (Slot.declared (.array (.array .string))).merge .core
      (.declared (.array (.array (.entry EntryId.exception))))
      = .ok (.declared (.array (.array .object))) := by
    decide +kernel
  exact ⟨hu, merge_least (P := fun _ => True) .core (Slot.wellBoxed_declared _)
    (Slot.wellBoxed_declared _) (by decide +kernel) hu (by decide +kernel) (by decide +kernel)⟩

end StackTyping
