import Mathlib.Logic.Relation
import StackTyping.Links

/-!
The depth-first walk finds exactly the nodes that can be reached.

The walk never enters a node twice, so a node found early is not searched again. What makes this
harmless is that a found node has all its targets found or still to be entered.
-/

namespace StackTyping.Links

variable {links : Links} {found todo : List Nat} {i j : Nat}

/-- `j` can be reached from `i` along edges. -/
def Reaches (links : Links) (i j : Nat) : Prop :=
  Relation.ReflTransGen (fun a b => (a, b) ∈ links) i j

/-- Every edge from a found node leads to a node that is found or still to be entered. -/
def Explored (links : Links) (found todo : List Nat) : Prop :=
  ∀ a ∈ found, ∀ b, (a, b) ∈ links → b ∈ found ∨ b ∈ todo

lemma reaches_of_mem_visit (h : j ∈ links.visit found todo) :
    j ∈ found ∨ ∃ i ∈ todo, links.Reaches i j := by
  fun_induction visit links found todo with
  | case1 found => exact Or.inl h
  | case2 found i todo _ ih =>
    rcases ih h with hj | ⟨k, hk, hr⟩
    · exact Or.inl hj
    · exact Or.inr ⟨k, List.mem_cons_of_mem _ hk, hr⟩
  | case3 found i todo _ ih =>
    rcases ih h with hj | ⟨k, hk, hr⟩
    · rcases List.mem_append.1 hj with hj | hj
      · exact Or.inl hj
      · obtain rfl := List.mem_singleton.1 hj
        exact Or.inr ⟨j, List.mem_cons_self, .refl⟩
    · rcases List.mem_append.1 hk with hk | hk
      · exact Or.inr ⟨i, List.mem_cons_self, .head (mem_targets.1 hk) hr⟩
      · exact Or.inr ⟨k, List.mem_cons_of_mem _ hk, hr⟩

lemma subset_visit : found ⊆ links.visit found todo := by
  fun_induction visit links found todo with
  | case1 found => exact List.Subset.refl found
  | case2 found i todo _ ih => exact ih
  | case3 found i todo _ ih => exact fun j hj => ih (List.mem_append_left _ hj)

lemma visit_append {more : List Nat} :
    links.visit found (todo ++ more) = links.visit (links.visit found todo) more := by
  fun_induction visit links found todo with
  | case1 found => rfl
  | case2 found i todo hi ih => rw [List.cons_append, visit, if_pos hi, ih]
  | case3 found i todo hi ih =>
    rw [List.cons_append, visit, if_neg hi, ← ih, List.append_assoc]

/-- Two walks find the same where the targets of all nodes that they come across are the same. -/
lemma visit_congr {links' : Links} {K : Nat → Prop}
    (htargets : ∀ i, K i → links'.targets i = links.targets i)
    (hclosed : ∀ i j, K i → j ∈ links.targets i → K j) (htodo : ∀ i ∈ todo, K i) :
    links'.visit found todo = links.visit found todo := by
  fun_induction visit links found todo with
  | case1 found => rw [visit]
  | case2 found i todo hi ih =>
    rw [visit, if_pos hi, ih (List.forall_mem_cons.1 htodo).2]
  | case3 found i todo hi ih =>
    obtain ⟨hKi, htodo⟩ := List.forall_mem_cons.1 htodo
    rw [visit, if_neg hi, htargets i hKi, ih fun j hj => ?_]
    rcases List.mem_append.1 hj with hj | hj
    · exact hclosed i j hKi hj
    · exact htodo j hj

/-- The nodes found at the end are closed under edges and include all that were known or to be
entered. -/
lemma visit_closed (h : links.Explored found todo) :
    (∀ a, a ∈ found ∨ a ∈ todo → a ∈ links.visit found todo) ∧
      links.Explored (links.visit found todo) [] := by
  fun_induction visit links found todo with
  | case1 found => exact ⟨fun a ha => by simpa using ha, h⟩
  -- a node that was found already is dropped
  | case2 found i todo hi ih =>
    have hi : i ∈ found := by simpa using hi
    obtain ⟨hmem, hclosed⟩ := ih fun a ha b hb => by
      rcases h a ha b hb with hb | hb
      · exact Or.inl hb
      · rcases List.mem_cons.1 hb with rfl | hb
        · exact Or.inl hi
        · exact Or.inr hb
    refine ⟨fun a ha => hmem a ?_, hclosed⟩
    rcases ha with ha | ha
    · exact Or.inl ha
    · rcases List.mem_cons.1 ha with rfl | ha
      · exact Or.inl hi
      · exact Or.inr ha
  -- a new node is noted, and its targets are put in front
  | case3 found i todo hi ih =>
    obtain ⟨hmem, hclosed⟩ := ih fun a ha b hb => by
      rcases List.mem_append.1 ha with ha | ha
      · rcases h a ha b hb with hb | hb
        · exact Or.inl (List.mem_append_left _ hb)
        · rcases List.mem_cons.1 hb with rfl | hb
          · exact Or.inl (by simp)
          · exact Or.inr (List.mem_append_right _ hb)
      · obtain rfl := List.mem_singleton.1 ha
        exact Or.inr (List.mem_append_left _ (mem_targets.2 hb))
    refine ⟨fun a ha => hmem a ?_, hclosed⟩
    rcases ha with ha | ha
    · exact Or.inl (List.mem_append_left _ ha)
    · rcases List.mem_cons.1 ha with rfl | ha
      · exact Or.inl (by simp)
      · exact Or.inr (List.mem_append_right _ ha)

/-- **The walk is a search.** From explored nodes it finds those, and what the pending ones
reach. -/
theorem mem_visit_iff (h : links.Explored found todo) :
    j ∈ links.visit found todo ↔ j ∈ found ∨ ∃ i ∈ todo, links.Reaches i j := by
  refine ⟨reaches_of_mem_visit, ?_⟩
  obtain ⟨hmem, hclosed⟩ := visit_closed h
  rintro (hj | ⟨i, hi, hr⟩)
  · exact hmem j (Or.inl hj)
  · induction hr with
    | refl => exact hmem i (Or.inr hi)
    | tail _ hlast ih => simpa using hclosed _ ih _ hlast

lemma mem_visit_nil : j ∈ links.visit [] todo ↔ ∃ i ∈ todo, links.Reaches i j := by
  rw [mem_visit_iff fun a ha => by cases ha]
  simp

lemma nodup_visit (h : found.Nodup) : (links.visit found todo).Nodup := by
  fun_induction visit links found todo with
  | case1 found => exact h
  | case2 found i todo _ ih => exact ih h
  | case3 found i todo hi ih =>
    have hi : i ∉ found := by simpa using hi
    refine ih (List.nodup_append.2 ⟨h, by simp, fun a ha b hb => ?_⟩)
    rintro rfl
    exact hi (List.mem_singleton.1 hb ▸ ha)

end StackTyping.Links
