/-!
A finite directed graph given by its edges, and the nodes a depth-first walk finds in it. The
walk keeps the nodes in the order in which it first meets them and never enters a node twice,
so it ends on cyclic graphs too: every step either drops a pending node or uses up the edges of
a node not yet found.
-/

namespace StackTyping

/-- A directed graph, given by its edges in the order in which they were declared. -/
abbrev Links := List (Nat × Nat)

namespace Links

def targets (links : Links) (i : Nat) : List Nat :=
  (links.filter (·.1 == i)).map (·.2)

/-- The edges that start at nodes not yet found. -/
def unused (links : Links) (found : List Nat) : Links :=
  links.filter fun edge => !found.contains edge.1

@[simp] theorem mem_targets {links : Links} {i j : Nat} :
    j ∈ links.targets i ↔ (i, j) ∈ links := by
  simp [targets]

/-- Finding a new node uses up exactly its own edges. -/
theorem length_targets_add_unused {links : Links} {found : List Nat} {i : Nat}
    (h : found.contains i = false) :
    (links.targets i).length + (links.unused (found ++ [i])).length
      = (links.unused found).length := by
  induction links with
  | nil => rfl
  | cons edge rest ih =>
    simp only [targets, unused, List.length_map] at ih ⊢
    by_cases hi : edge.1 = i
    · subst hi
      have hf : edge.1 ∉ found := by simpa using h
      simp [hf] at ih ⊢
      omega
    · have hn : (edge.1 == i) = false := by simpa using hi
      by_cases hf : edge.1 ∈ found <;> simp [hn, hf, hi] at ih ⊢ <;> omega

/-- The nodes found by a depth-first walk: `found` are known already, `todo` is still to be
entered, next one first. -/
def visit (links : Links) (found : List Nat) : List Nat → List Nat
  | [] => found
  | i :: todo =>
    if found.contains i then visit links found todo
    else visit links (found ++ [i]) (links.targets i ++ todo)
termination_by todo => todo.length + (links.unused found).length
decreasing_by
  · simp
  · rename_i h
    have := @length_targets_add_unused links found i (by simpa using h)
    simp only [List.length_append, List.length_cons]
    omega

end Links

end StackTyping
