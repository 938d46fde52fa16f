import StackTyping.Proofs.Catalog.Conservation
import StackTyping.Proofs.Slot.Clash

/-!
Away from interfaces, the merge of three slots does not depend on the order in which they arrive.

A merge clashes with exactly the slots that one of its two parts clashes with. So three slots merge,
in whichever order, just when no two of them clash. The results then accept each other, since both
are least among the slots that accept all three, and slots that accept each other and mention no
interface are equivalent. Numbers are the exception, since they also accept numbers of other types:
their merge is read off directly, as the weak form of the first.

The argument needs passing to be transitive, which it is only where the top class has no interfaces
of its own. But a slot that mentions no interface accepts the same slots if all interfaces are
forgotten.
-/

namespace StackTyping

variable {cat : Catalog} {a b c d e u v : Slot} {s t x : Ty}

/-! ### Forgetting interfaces -/

namespace Catalog

/-- The catalog in which no type implements an interface. -/
def forget (cat : Catalog) : Catalog := { cat with implements := [] }

lemma alike_forget : Alike (fun _ => True) cat cat.forget :=
  ⟨fun _ _ => rfl, fun _ _ => rfl, fun _ _ _ _ => trivial, fun _ _ _ _ => trivial⟩

lemma equiv_forget : cat.forget.equiv s t = cat.equiv s t := alike_forget.equiv_eq trivial trivial

lemma mentionsInterface_forget : cat.forget.mentionsInterface t = cat.mentionsInterface t := by
  rw [mentionsInterface, mentionsInterface, alike_forget.expand_eq trivial]
  rfl

lemma derives_forget (ht : cat.isInterface t = false) :
    cat.forget.derives s t = cat.derives s t := by
  have ht' : cat.forget.isInterface t = false := ht
  rw [derives, derives, ht, ht', alike_forget.baseChain_eq trivial]
  simp only [Bool.false_eq_true, if_false, equiv_forget]

/-- The subtypes of a type that mentions no interface do not depend on interfaces. -/
lemma subtype_forget {s t : Ty} (ht : cat.mentionsInterface t = false) :
    cat.forget.subtype s t = cat.subtype s t := by
  by_cases harr : cat.isArray s ∧ cat.isArray t
  · obtain ⟨x, hx⟩ := isArray_iff.1 harr.1
    obtain ⟨y, hy⟩ := isArray_iff.1 harr.2
    rw [mentionsInterface_array hy] at ht
    have hx' : cat.forget.kind s = .array x := hx
    have hy' : cat.forget.kind t = .array y := hy
    rw [Bool.eq_iff_iff, subtype_array_iff hx' hy', subtype_array_iff hx hy, equiv_forget,
      subtype_forget ht]
    rfl
  · have hint : cat.isInterface t = false := Bool.eq_false_iff.2 fun hint => by
      rw [mentionsInterface_of_kind (isInterface_iff.1 hint)] at ht
      cases ht
    have harr' : ¬(cat.forget.isArray s ∧ cat.forget.isArray t) := harr
    rw [subtype_of_not_arrays harr', subtype_of_not_arrays harr, equiv_forget,
      derives_forget hint]
    rfl
termination_by s.rank
decreasing_by exact rank_array_lt hx

lemma Lawful.forget (h : Lawful cat) : Lawful cat.forget :=
  ⟨h.core_entries, fun t ht => (h.shape t ht).mono fun _ h => h, h.primitive, h.named_plain,
    nofun, nofun⟩

end Catalog

namespace Slot

lemma equiv_forget : a.equiv cat.forget b = a.equiv cat b := by
  rw [equiv, equiv]
  simp only [Catalog.equiv_forget]

lemma mentionsInterface_forget :
    a.mentionsInterface cat.forget = a.mentionsInterface cat := by
  rw [mentionsInterface, mentionsInterface]
  congr 1
  funext t
  exact Catalog.mentionsInterface_forget

end Slot

namespace Catalog.Lawful

open Slot

variable (h : Lawful cat)
include h

lemma accepts_forget (ha : a.mentionsInterface cat = false) :
    a.accepts cat.forget b = a.accepts cat b := by
  rw [Bool.eq_iff_iff, h.forget.accepts_iff, h.accepts_iff, Slot.equiv_forget]
  refine or_congr Iff.rfl (exists_congr fun t => and_congr_right fun ht => and_congr_right fun _ =>
    or_congr Iff.rfl (exists_congr fun s => and_congr_right fun _ => and_congr_right fun _ => ?_))
  rw [Slot.mentionsInterface, ht, Option.any_some] at ha
  rw [subtype_forget ha]

/-- **Passing is transitive away from interfaces**, whatever the top class implements. -/
lemma accepts_trans_of_mentions (ha : a.mentionsInterface cat = false)
    (hb : b.mentionsInterface cat = false) (hab : a.accepts cat b) (hbc : b.accepts cat c) :
    a.accepts cat c := by
  rw [← h.accepts_forget ha] at hab ⊢
  rw [← h.accepts_forget hb] at hbc
  exact h.forget.accepts_trans rfl hab hbc

/-- **Passing is antisymmetric away from interfaces**, whatever the top class implements. -/
lemma strong_equiv_of_accepts (ha : a.WellBoxed cat) (hb : b.WellBoxed cat)
    (hna : a.mentionsInterface cat = false) (hnb : b.mentionsInterface cat = false)
    (hab : a.accepts cat b) (hba : b.accepts cat a) :
    (a.strong cat).equiv cat (b.strong cat) := by
  rw [← h.accepts_forget hna] at hab
  rw [← h.accepts_forget hnb] at hba
  rw [← Slot.mentionsInterface_forget] at hna hnb
  have heq := h.forget.accepts_antisymm rfl ha hb hna hnb hab hba
  rwa [Slot.equiv_forget] at heq

end Catalog.Lawful

/-! ### Plain slots -/

/-- The slot is boxed only where it can be, mentions no interface and no array in it holds pointers
or void. -/
structure Slot.Plain (cat : Catalog) (a : Slot) : Prop where
  wellBoxed : a.WellBoxed cat
  mentions : a.mentionsInterface cat = false
  elements : a.hasExactElement cat = false

namespace Catalog

/-- A type without elements mentions no interface but itself. -/
lemma mentionsInterface_of_none (h : cat.element? t = none) :
    cat.mentionsInterface t = cat.isInterface t := by
  rw [mentionsInterface, expand_plain h]
  cases t with
  | entry i => rfl
  | array e => cases h
  | pointer e => cases h

end Catalog

namespace Slot

lemma Plain.of_ty (ha : a.Plain cat) (hty : b.ty = a.ty) (hb : b.WellBoxed cat) : b.Plain cat := by
  refine ⟨hb, ?_, ?_⟩
  · rw [mentionsInterface, hty]
    exact ha.mentions
  · rw [hasExactElement, hty]
    exact ha.elements

lemma plain_of_none (he : cat.element? t = none) (hint : cat.isInterface t = false)
    (ha : a.WellBoxed cat) (ht : a.ty = some t) : a.Plain cat := by
  refine ⟨ha, ?_, ?_⟩
  · rw [mentionsInterface, ht, Option.any_some, Catalog.mentionsInterface_of_none he, hint]
  · rw [hasExactElement, ht, Option.any_some]
    refine Catalog.hasExactElement_of_not_array fun harr => ?_
    obtain ⟨x, hx⟩ := Catalog.isArray_iff.1 harr
    rw [Catalog.element?, hx] at he
    cases he

lemma plain_of_class (hk : cat.kind t = .classType) (ha : a.WellBoxed cat) (ht : a.ty = some t) :
    a.Plain cat :=
  plain_of_none (by rw [Catalog.element?, hk]; rfl) (by rw [Catalog.isInterface, hk]; rfl) ha ht

/-- An array is plain if its element is and is neither a pointer nor void. -/
lemma plain_array_iff (hs : cat.kind s = .array x) (ha : a.ty = some s) : a.Plain cat ↔
    a.WellBoxed cat ∧ cat.isExact x = false ∧ (declared x).Plain cat := by
  have hmentions : a.mentionsInterface cat = (declared x).mentionsInterface cat := by
    rw [mentionsInterface, ha, Option.any_some, Catalog.mentionsInterface_array hs]
    rfl
  have helements : a.hasExactElement cat =
      (cat.isExact x || (declared x).hasExactElement cat) := by
    rw [hasExactElement, ha, Option.any_some, Catalog.hasExactElement_array hs]
    rfl
  constructor
  · rintro ⟨hbox, hm, he⟩
    rw [helements, Bool.or_eq_false_iff] at he
    exact ⟨hbox, he.1, wellBoxed_declared x, hmentions ▸ hm, he.2⟩
  · rintro ⟨hbox, hx, -, hm, he⟩
    exact ⟨hbox, hmentions.trans hm, by rw [helements, hx, he]; rfl⟩

end Slot

namespace Catalog.Lawful

open Slot

variable (h : Lawful cat)
include h

lemma plain_weak (ha : a.Plain cat) : (a.weak cat).Plain cat := by
  rcases h.eq_ofPrimitive_or a with ⟨p, rfl⟩ | hn
  · rw [h.weak_ofPrimitive]
    refine plain_of_none (h.element?_ofPrimitive _) ?_ (wellBoxed_declared _) rfl
    rw [isInterface, h.kind_ofPrimitive]
    rfl
  · rwa [weak_of_none hn]

/-- **The merge of plain slots is plain.** -/
lemma plain_of_merges (hm : Merges cat a b u) (ha : a.Plain cat) (hb : b.Plain cat) :
    u.Plain cat := by
  induction hm with
  | nullLeft _ _ => exact hb
  | nullRight _ _ => exact ha
  | same _ => exact h.plain_weak ha
  | valueArrays _ _ _ _ => exact plain_of_class h.kind_arrayBase (wellBoxed_declared _) rfl
  | @arrays a b u s t x y e hab hs ht hx hy helem hu ih =>
    obtain ⟨-, hxx, hpx⟩ := (plain_array_iff hs hab.left_ty).1 ha
    obtain ⟨-, -, hpy⟩ := (plain_array_iff ht hab.right_ty).1 hb
    have hpe : (declared e).Plain cat := (ih hpx hpy).of_ty hu.symm (wellBoxed_declared e)
    -- the merged element is a supertype of `x`, so it is no pointer and not void either
    have haccepts := h.accepts_of_stores ((h.covers_of_merges helem).1.stores hu)
    have hxe := h.subtype_of_accepts haccepts hu rfl (by rw [isInline_declared, hx])
    exact (plain_array_iff rfl rfl).2 ⟨wellBoxed_declared _, h.isExact_of_subtype hxx hxe, hpe⟩
  | @interface a b s t hab hst =>
    have hmentions : a.mentionsInterface cat ∨ b.mentionsInterface cat := by
      rw [Slot.mentionsInterface, Slot.mentionsInterface, hab.left_ty, hab.right_ty]
      exact hst.imp (fun hs => mentionsInterface_of_kind (isInterface_iff.1 hs))
        fun ht => mentionsInterface_of_kind (isInterface_iff.1 ht)
    rw [ha.mentions, hb.mentions] at hmentions
    simp at hmentions
  | @base a b s t v hab hv =>
    obtain ⟨hsv, -⟩ := extends_of_sharedBase? hv
    rcases Relation.ReflTransGen.cases_tail hsv with rfl | ⟨_, -, hb⟩
    · exact ha.of_ty hab.left_ty.symm (wellBoxed_boxedOf v)
    · exact plain_of_class (h.kind_of_base? hb) (wellBoxed_boxedOf v) rfl

lemma plain_of_merge (ha : a.Plain cat) (hb : b.Plain cat) (hu : a.merge cat b = .ok u) :
    u.Plain cat :=
  h.plain_of_merges (merges_of_merge hu) ha hb

/-! ### Clashes of a merge -/

/-- A merge gives one of the slots where the other is `null`, their common weak form, or an object
where both are objects. -/
lemma merge_ok_cases (hu : a.merge cat b = .ok u) :
    (a.ty = none ∧ b.isInline cat = false ∧ u = b) ∨
      (b.ty = none ∧ a.isInline cat = false ∧ u = a) ∨
      ((a.weak cat).equiv cat (b.weak cat) ∧ u = a.weak cat) ∨
      a.IsObject cat ∧ b.IsObject cat ∧ u.IsObject cat := by
  have hobjects : ∀ {s t : Ty}, Apart cat a b s t →
      a.IsObject cat ∧ b.IsObject cat ∧ u.IsObject cat := by
    intro s t hab
    obtain ⟨hoa, hob⟩ := hab.isObject
    exact ⟨hoa, hob, h.isObject_of_merge hoa hu⟩
  cases merges_of_merge hu with
  | nullLeft ha hib => exact Or.inl ⟨ha, hib, rfl⟩
  | nullRight hb hia => exact Or.inr (Or.inl ⟨hb, hia, rfl⟩)
  | same hab => exact Or.inr (Or.inr (Or.inl ⟨hab, rfl⟩))
  | valueArrays hab _ _ _ => exact Or.inr (Or.inr (Or.inr (hobjects hab)))
  | arrays hab _ _ _ _ _ _ => exact Or.inr (Or.inr (Or.inr (hobjects hab)))
  | interface hab _ => exact Or.inr (Or.inr (Or.inr (hobjects hab)))
  | base hab _ => exact Or.inr (Or.inr (Or.inr (hobjects hab)))

lemma weak_weak : (a.weak cat).weak cat = a.weak cat := by
  rcases h.eq_ofPrimitive_or a with ⟨p, rfl⟩ | hn
  · rw [h.weak_ofPrimitive, h.weak_ofPrimitive, Primitive.weak_weak]
  · rw [weak_of_none hn, weak_of_none hn]

lemma clashes_of_isInline (ha : a.isInline cat = false) (hb : b.isInline cat) :
    a.Clashes cat b := by
  cases hna : a.isNull with
  | true => exact Or.inl ⟨hna, hb⟩
  | false =>
    refine Or.inr (Or.inr ⟨⟨hna, Bool.eq_false_iff.2 fun hnb => ?_⟩,
      Bool.eq_false_iff.2 fun heq => ?_, Or.inr (by simp [isRigid, hb])⟩)
    · rw [isInline_of_none (Option.isNone_iff_eq_none.1 hnb)] at hb
      cases hb
    · rw [← h.isInline_weak, ← isInline_congr heq, h.isInline_weak, ha] at hb
      cases hb

/-- **A merge clashes with what one of its slots clashes with.** -/
lemma clashes_merge_iff (hu : a.merge cat b = .ok u) :
    u.Clashes cat c ↔ a.Clashes cat c ∨ b.Clashes cat c := by
  rcases h.merge_ok_cases hu with ⟨ha, hib, rfl⟩ | ⟨hb, hia, rfl⟩ | ⟨hab, rfl⟩ | ⟨hoa, hob, hou⟩
  · rw [clashes_of_none ha, or_iff_right_of_imp (h.clashes_of_isInline hib)]
  · rw [clashes_of_none hb, or_iff_left_of_imp (h.clashes_of_isInline hia)]
  · have hweak : ((a.weak cat).weak cat).equiv cat (a.weak cat) := by
      rw [h.weak_weak]
      exact Slot.equiv_refl _
    rw [h.clashes_congr hweak, h.clashes_congr hab, or_self]
  · rw [h.clashes_of_isObject hoa, h.clashes_of_isObject hob, h.clashes_of_isObject hou, or_self]

lemma merge_ok_iff (ha : a.Plain cat) (hb : b.Plain cat) :
    (∃ u, a.merge cat b = .ok u) ↔ ¬a.Clashes cat b := by
  refine ⟨fun ⟨u, hu⟩ hab => ?_, h.exists_merge ha.elements hb.elements⟩
  rw [merge_of_clashes hab] at hu
  cases hu

lemma merge_left_ok_iff (ha : a.Plain cat) (hb : b.Plain cat) (hc : c.Plain cat) :
    (∃ u, (a.merge cat b >>= fun d => d.merge cat c) = .ok u) ↔
      ¬a.Clashes cat b ∧ ¬a.Clashes cat c ∧ ¬b.Clashes cat c := by
  rw [exists_bind_eq_ok_iff, ← h.merge_ok_iff ha hb, ← not_or]
  constructor
  · rintro ⟨d, hd, hu⟩
    rw [h.merge_ok_iff (h.plain_of_merge ha hb hd) hc, h.clashes_merge_iff hd] at hu
    exact ⟨⟨d, hd⟩, hu⟩
  · rintro ⟨⟨d, hd⟩, hu⟩
    rw [← h.clashes_merge_iff hd, ← h.merge_ok_iff (h.plain_of_merge ha hb hd) hc] at hu
    exact ⟨d, hd, hu⟩

lemma merge_right_ok_iff (ha : a.Plain cat) (hb : b.Plain cat) (hc : c.Plain cat) :
    (∃ v, (b.merge cat c >>= fun e => a.merge cat e) = .ok v) ↔
      ¬a.Clashes cat b ∧ ¬a.Clashes cat c ∧ ¬b.Clashes cat c := by
  have hswap : (∃ v, (b.merge cat c >>= fun e => a.merge cat e) = .ok v) ↔
      ∃ u, (b.merge cat c >>= fun e => e.merge cat a) = .ok u := by
    rw [exists_bind_eq_ok_iff, exists_bind_eq_ok_iff]
    refine exists_congr fun e => and_congr_right fun he => ?_
    have hpe := h.plain_of_merge hb hc he
    rw [h.merge_ok_iff ha hpe, h.merge_ok_iff hpe ha, clashes_comm]
  rw [hswap, h.merge_left_ok_iff hb hc ha, clashes_comm (a := b) (b := a),
    clashes_comm (a := c) (b := a)]
  tauto

/-! ### Equal results -/

lemma accepts_parts (ha : a.Plain cat) (hb : b.Plain cat) (hu : a.merge cat b = .ok u) :
    u.accepts cat a ∧ u.accepts cat b := by
  have hm := merges_of_merge hu
  have hbox := hm.wellBoxed ha.wellBoxed hb.wellBoxed
  obtain ⟨hua, hub⟩ := h.covers_of_merges hm
  exact ⟨h.accepts_of_covers hbox ha.wellBoxed hua, h.accepts_of_covers hbox hb.wellBoxed hub⟩

lemma eq_weak_of_isInline (hu : a.merge cat b = .ok u)
    (hinline : a.isInline cat ∨ u.isInline cat) : u = a.weak cat := by
  rcases h.merge_ok_cases hu with ⟨ha, hib, rfl⟩ | ⟨-, hia, rfl⟩ | ⟨-, hweak⟩ | ⟨hoa, -, hou⟩
  · simp [isInline_of_none ha, hib] at hinline
  · simp [hia] at hinline
  · exact hweak
  · simp [hoa.isInline_eq, hou.isInline_eq] at hinline

/-- Three inline values merge in the weak form of the first, from either side. -/
lemma eq_of_isInline (hd : a.merge cat b = .ok d) (hu : d.merge cat c = .ok u)
    (hv : a.merge cat e = .ok v) (hinline : v.isInline cat) : u = v := by
  have hva := h.eq_weak_of_isInline hv (Or.inr hinline)
  have hia : a.isInline cat := by rw [← h.isInline_weak, ← hva, hinline]
  have hda := h.eq_weak_of_isInline hd (Or.inl hia)
  have hid : d.isInline cat := by rw [hda, h.isInline_weak, hia]
  calc u = d.weak cat := h.eq_weak_of_isInline hu (Or.inl hid)
    _ = a.weak cat := by rw [hda, h.weak_weak]
    _ = v := hva.symm

/-- The two ways to merge three plain slots give equivalent results: each is below the other. -/
lemma equiv_of_merge_merge (ha : a.Plain cat) (hb : b.Plain cat) (hc : c.Plain cat)
    (hd : a.merge cat b = .ok d) (hu : d.merge cat c = .ok u) (he : b.merge cat c = .ok e)
    (hv : a.merge cat e = .ok v) : u.equiv cat v := by
  have hpd := h.plain_of_merge ha hb hd
  have hpe := h.plain_of_merge hb hc he
  have hpu := h.plain_of_merge hpd hc hu
  have hpv := h.plain_of_merge ha hpe hv
  obtain ⟨hda, hdb⟩ := h.accepts_parts ha hb hd
  obtain ⟨hud, huc⟩ := h.accepts_parts hpd hc hu
  obtain ⟨heb, hec⟩ := h.accepts_parts hb hc he
  obtain ⟨hva, hve⟩ := h.accepts_parts ha hpe hv
  have huv : u.accepts cat v := by
    have hua := h.accepts_trans_of_mentions hpu.mentions hpd.mentions hud hda
    have hub := h.accepts_trans_of_mentions hpu.mentions hpd.mentions hud hdb
    have hue := h.accepts_of_merge hb.wellBoxed hc.wellBoxed hpu.mentions he hub huc
    exact h.accepts_of_merge ha.wellBoxed hpe.wellBoxed hpu.mentions hv hua hue
  have hvu : v.accepts cat u := by
    have hvb := h.accepts_trans_of_mentions hpv.mentions hpe.mentions hve heb
    have hvc := h.accepts_trans_of_mentions hpv.mentions hpe.mentions hve hec
    have hvd := h.accepts_of_merge ha.wellBoxed hb.wellBoxed hpv.mentions hd hva hvb
    exact h.accepts_of_merge hpd.wellBoxed hc.wellBoxed hpv.mentions hu hvd hvc
  have hstrong := h.strong_equiv_of_accepts hpu.wellBoxed hpv.wellBoxed hpu.mentions hpv.mentions
    huv hvu
  -- strong forms say nothing about the width of numbers, but both merges have the weak form of `a`
  cases hinline : v.isInline cat with
  | false => exact h.equiv_of_strong_equiv hstrong hinline
  | true =>
    rw [h.eq_of_isInline hd hu hv hinline]
    exact Slot.equiv_refl v

end Catalog.Lawful

/-- **Merging is associative away from interfaces**: three plain slots merge from the left just when
they merge from the right, and in equivalent slots. -/
theorem merge_assoc {P : EntryId → Prop} (hcat : cat.Grown P) (ha : a.Plain cat) (hb : b.Plain cat)
    (hc : c.Plain cat) :
    (a.merge cat b >>= fun d => d.merge cat c).isOk
        = (b.merge cat c >>= fun e => a.merge cat e).isOk ∧
      ∀ u v, (a.merge cat b >>= fun d => d.merge cat c) = .ok u →
        (b.merge cat c >>= fun e => a.merge cat e) = .ok v → u.equiv cat v := by
  have hlaw := hcat.lawful
  constructor
  · rw [Bool.eq_iff_iff, isOk_iff, isOk_iff, hlaw.merge_left_ok_iff ha hb hc,
      hlaw.merge_right_ok_iff ha hb hc]
  · intro u v hu hv
    obtain ⟨d, hd, hu⟩ := bind_eq_ok_iff.1 hu
    obtain ⟨e, he, hv⟩ := bind_eq_ok_iff.1 hv
    exact hlaw.equiv_of_merge_merge ha hb hc hd hu he hv

/-- Arrays of arrays of numbers of two sizes and of strings meet in arrays of arrays, whichever two
of them meet first. -/
theorem merge_assoc_arrays :
    ((Slot.declared (.array (.array (.ofPrimitive .int32)))).merge .core
        (.declared (.array (.array (.ofPrimitive .int64)))) >>= fun d =>
          d.merge .core (.declared (.array (.array .string))))
        = .ok (.declared (.array .arrayBase)) ∧
      ∃ v, ((Slot.declared (.array (.array (.ofPrimitive .int64)))).merge .core
          (.declared (.array (.array .string))) >>= fun e =>
            (Slot.declared (.array (.array (.ofPrimitive .int32)))).merge .core e) = .ok v ∧
        (Slot.declared (.array .arrayBase)).equiv .core v := by
  have hplain : ∀ t : Ty, Catalog.core.mentionsInterface t = false →
      Catalog.core.hasExactElement t = false → (Slot.declared t).Plain .core :=
    fun t hm he => ⟨Slot.wellBoxed_declared t, hm, he⟩
  have hleft : ((Slot.declared (.array (.array (.ofPrimitive .int32)))).merge .core
      (.declared (.array (.array (.ofPrimitive .int64)))) >>= fun d =>
        d.merge .core (.declared (.array (.array .string))))
      = .ok (.declared (.array .arrayBase)) := by
    decide +kernel
  obtain ⟨hok, hequiv⟩ := merge_assoc (P := fun _ => True) .core
    (hplain (.array (.array (.ofPrimitive .int32))) (by decide +kernel) (by decide +kernel))
    (hplain (.array (.array (.ofPrimitive .int64))) (by decide +kernel) (by decide +kernel))
    (hplain (.array (.array .string)) (by decide +kernel) (by decide +kernel))
  rw [hleft] at hok
  obtain ⟨v, hv⟩ := isOk_iff.1 hok.symm
  exact ⟨hleft, v, hv, hequiv _ v hleft hv⟩

end StackTyping
