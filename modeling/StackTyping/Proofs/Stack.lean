import Mathlib.Data.List.Forall2
import StackTyping.Proofs.Slot.Merge

/-!
Stacks slot by slot.

Where paths meet, the merged stack covers each of the stacks it is merged from. Covering is
transitive, so this holds of the stack that any number of paths end up with.
-/

namespace StackTyping.Stack

variable {cat : Catalog} {a b c u : Stack}

/-- The boxed flag is set on value types and enumerations only. -/
def WellBoxed (cat : Catalog) (a : Stack) : Prop := ∀ s ∈ a, s.WellBoxed cat

/-- Every slot of the first stack covers the matching slot of the second. -/
def Covers (cat : Catalog) (a b : Stack) : Prop := List.Forall₂ (Slot.Covers cat) a b

lemma wellBoxed_nil : WellBoxed cat [] := fun _ h => by cases h

@[simp] lemma wellBoxed_cons {s : Slot} :
    WellBoxed cat (s :: a) ↔ s.WellBoxed cat ∧ WellBoxed cat a := List.forall_mem_cons

lemma accepts_iff : a.accepts cat b ↔ List.Forall₂ (fun s t : Slot => s.accepts cat t) a b := by
  simp [accepts, List.forall₂_iff_zip]

lemma Covers.refl (h : cat.Lawful) (a : Stack) : Covers cat a a :=
  List.forall₂_same.2 fun s _ => Or.inl (h.stores_refl s)

lemma Covers.trans (h : cat.Lawful) (hobj : cat.implements.targets EntryId.object = [])
    (hab : Covers cat a b) (hbc : Covers cat b c) : Covers cat a c := by
  induction hab generalizing c with
  | nil => exact hbc
  | cons hst _ ih =>
    cases hbc with
    | cons htu hrest => exact .cons (h.covers_trans hobj hst htu) (ih hrest)

lemma Covers.accepts (h : cat.Lawful) (ha : a.WellBoxed cat) (hb : b.WellBoxed cat)
    (hab : Covers cat a b) : a.accepts cat b := by
  rw [accepts_iff]
  induction hab with
  | nil => exact .nil
  | cons hst _ ih =>
    obtain ⟨hs, ha⟩ := wellBoxed_cons.1 ha
    obtain ⟨ht, hb⟩ := wellBoxed_cons.1 hb
    exact .cons (h.accepts_of_covers hs ht hst) (ih ha hb)

/-! ### Merging -/

/-- Stacks of one height merge slot by slot. -/
inductive Merges (cat : Catalog) : Stack → Stack → Stack → Prop where
  | nil : Merges cat [] [] []
  | cons {s t w : Slot} {a b u : Stack} (htop : Slot.Merges cat s t w)
      (hbelow : Merges cat a b u) : Merges cat (s :: a) (t :: b) (w :: u)

lemma merges_of_mergeSlots (hlen : a.length = b.length) (hu : mergeSlots cat a b = .ok u) :
    Merges cat a b u := by
  induction a generalizing b u with
  | nil =>
    cases b with
    | nil =>
      cases hu
      exact .nil
    | cons t b => cases hlen
  | cons s a ih =>
    cases b with
    | nil => cases hlen
    | cons t b =>
      obtain ⟨below, hbelow, hu⟩ := bind_eq_ok_iff.1 hu
      obtain ⟨top, htop, hu⟩ := bind_eq_ok_iff.1 hu
      cases hu
      exact .cons (Slot.merges_of_merge htop) (ih (Nat.succ.inj hlen) hbelow)

lemma merges_of_merge (hu : a.merge cat b = .ok u) : Merges cat a b u := by
  rw [merge] at hu
  split at hu
  · rename_i hlen
    exact merges_of_mergeSlots hlen hu
  · cases hu

/-- **The stack where two paths meet** covers what either brings. -/
lemma Merges.covers (h : cat.Lawful) (hm : Merges cat a b u) :
    Covers cat u a ∧ Covers cat u b := by
  induction hm with
  | nil => exact ⟨.nil, .nil⟩
  | cons htop _ ih =>
    obtain ⟨hs, ht⟩ := h.covers_of_merges htop
    exact ⟨.cons hs ih.1, .cons ht ih.2⟩

lemma Merges.wellBoxed (hm : Merges cat a b u) (ha : a.WellBoxed cat) (hb : b.WellBoxed cat) :
    u.WellBoxed cat := by
  induction hm with
  | nil => exact ha
  | cons htop _ ih =>
    obtain ⟨hs, ha⟩ := wellBoxed_cons.1 ha
    obtain ⟨ht, hb⟩ := wellBoxed_cons.1 hb
    exact wellBoxed_cons.2 ⟨htop.wellBoxed hs ht, ih ha hb⟩

end StackTyping.Stack
