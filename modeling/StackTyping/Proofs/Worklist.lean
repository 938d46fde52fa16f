import Mathlib.Data.Finset.Card
import Mathlib.Logic.Relation

/-!
A search with a worklist in a graph that may have cycles.

The search keeps the nodes it has met and, among them, the ones still to be looked at. It looks at
the node met last, and meets the nodes that follow. Nothing in this bounds the number of rounds, so
the search is stopped after `n` of them, and `none` stands for a search that is not over by then.
Where the nodes that can be reached are finite in number the search is over after as many rounds,
since every round looks at one of them and no node is met twice.
-/

namespace StackTyping

lemma card_sdiff_insert_add_one {α : Type} [DecidableEq α] {U seen : Finset α} {a : α} (ha : a ∈ U)
    (hseen : a ∉ seen) : (U \ insert a seen).card + 1 = (U \ seen).card := by
  rw [Finset.sdiff_insert, Finset.card_erase_add_one (Finset.mem_sdiff.2 ⟨ha, hseen⟩)]

/-- The nodes that a search has met, and those of them that it has still to look at. -/
structure Frontier (α : Type) where
  seen : List α
  todo : List α

namespace Frontier

variable {α : Type} [DecidableEq α]

/-- A node that is met for the first time is put in front of the worklist. -/
def meet (f : Frontier α) (a : α) : Frontier α :=
  if a ∈ f.seen then f else ⟨a :: f.seen, a :: f.todo⟩

/-- Search for a node that passes a test, in less than `n` rounds. -/
def search? (next : α → List α) (test : α → Option Bool) : Nat → Frontier α → Option Bool
  | 0, _ => none
  | n + 1, f =>
    match f.todo with
    | [] => some false
    | a :: rest => do
      if ← test a then return true
      search? next test n ((next a).foldl meet ⟨f.seen, rest⟩)

variable {next : α → List α} {f : Frontier α} {s a x : α} {as : List α}

/-! ### Meeting nodes -/

lemma mem_seen_meet : x ∈ (f.meet a).seen ↔ x ∈ f.seen ∨ x = a := by
  unfold meet
  split
  · rename_i ha
    exact ⟨Or.inl, fun h => h.elim id fun hxa => hxa ▸ ha⟩
  · rw [List.mem_cons, or_comm]

lemma mem_todo_meet : x ∈ (f.meet a).todo ↔ x ∈ f.todo ∨ x = a ∧ a ∉ f.seen := by
  unfold meet
  split
  · rename_i ha
    simp [ha]
  · rename_i ha
    simp [ha, or_comm]

lemma mem_seen_foldl : x ∈ (as.foldl meet f).seen ↔ x ∈ f.seen ∨ x ∈ as := by
  induction as generalizing f with
  | nil => simp
  | cons a as ih => rw [List.foldl_cons, ih, mem_seen_meet, or_assoc, List.mem_cons]

lemma mem_todo_foldl : x ∈ (as.foldl meet f).todo ↔ x ∈ f.todo ∨ x ∈ as ∧ x ∉ f.seen := by
  induction as generalizing f with
  | nil => simp
  | cons a as ih =>
    rw [List.foldl_cons, ih, mem_todo_meet, mem_seen_meet, List.mem_cons]
    grind

/-- How many of the nodes `U` are still to be met or to be looked at. -/
def remaining (U : Finset α) (f : Frontier α) : Nat := (U \ f.seen.toFinset).card + f.todo.length

lemma remaining_meet {U : Finset α} (ha : a ∈ U) : (f.meet a).remaining U = f.remaining U := by
  unfold meet
  split
  · rfl
  · rename_i hseen
    have hcard := card_sdiff_insert_add_one ha (mt List.mem_toFinset.1 hseen)
    simp only [remaining, List.toFinset_cons, List.length_cons]
    omega

lemma remaining_foldl {U : Finset α} (has : ∀ a ∈ as, a ∈ U) :
    (as.foldl meet f).remaining U = f.remaining U := by
  induction as generalizing f with
  | nil => rfl
  | cons a as ih =>
    rw [List.foldl_cons, ih fun b hb => has b (List.mem_cons_of_mem _ hb),
      remaining_meet (has a List.mem_cons_self)]

lemma remaining_single_le (U : Finset α) (s : α) :
    remaining (insert s U) ⟨[s], [s]⟩ ≤ U.card + 1 := by
  have hsub : insert s U \ [s].toFinset ⊆ U := by
    intro a ha
    simp only [List.toFinset_cons, List.toFinset_nil, Finset.mem_sdiff, Finset.mem_insert] at ha
    exact ha.1.resolve_left fun has => ha.2 (Or.inl has)
  have hcard := Finset.card_le_card hsub
  simp only [remaining, List.length_singleton]
  omega

/-! ### Rounds of the search -/

/-- The node can be reached from another. -/
def Reaches (next : α → List α) (s a : α) : Prop :=
  Relation.ReflTransGen (fun x y => y ∈ next x) s a

/-- What every round of a search from `s` keeps: it has met only nodes that can be reached, and it
is done with a node when the node has failed the test and all that follow it have been met. -/
structure Sound (next : α → List α) (p : α → Bool) (s : α) (f : Frontier α) : Prop where
  start : s ∈ f.seen
  reached : ∀ a ∈ f.seen, Reaches next s a
  pending : ∀ a ∈ f.todo, a ∈ f.seen
  done : ∀ a ∈ f.seen, a ∈ f.todo ∨ p a = false ∧ ∀ x ∈ next a, x ∈ f.seen

namespace Sound

variable {p : α → Bool}

omit [DecidableEq α] in
lemma single (next : α → List α) (p : α → Bool) (s : α) : Sound next p s ⟨[s], [s]⟩ := by
  refine ⟨List.mem_singleton_self s, fun a ha => ?_, fun a ha => ha, fun a ha => Or.inl ha⟩
  obtain rfl := List.mem_singleton.1 ha
  exact .refl

/-- A round that looks at a node that fails the test. -/
lemma round (h : Sound next p s f) {rest : List α} (htodo : f.todo = a :: rest)
    (hp : p a = false) : Sound next p s ((next a).foldl meet ⟨f.seen, rest⟩) := by
  have hseen := h.pending a (htodo ▸ List.mem_cons_self)
  refine ⟨mem_seen_foldl.2 (Or.inl h.start), fun x hx => ?_, fun x hx => ?_, fun x hx => ?_⟩
  · rcases mem_seen_foldl.1 hx with hx | hx
    · exact h.reached x hx
    · exact (h.reached a hseen).tail hx
  · rcases mem_todo_foldl.1 hx with hx | ⟨hx, -⟩
    · exact mem_seen_foldl.2 (Or.inl (h.pending x (htodo ▸ List.mem_cons_of_mem _ hx)))
    · exact mem_seen_foldl.2 (Or.inr hx)
  · by_cases hnew : x ∈ f.seen
    · rcases h.done x hnew with hx | ⟨hpx, hnext⟩
      · rcases List.mem_cons.1 (htodo ▸ hx) with rfl | hx
        · exact Or.inr ⟨hp, fun y hy => mem_seen_foldl.2 (Or.inr hy)⟩
        · exact Or.inl (mem_todo_foldl.2 (Or.inl hx))
      · exact Or.inr ⟨hpx, fun y hy => mem_seen_foldl.2 (Or.inl (hnext y hy))⟩
    · have hx := (mem_seen_foldl.1 hx).resolve_left hnew
      exact Or.inl (mem_todo_foldl.2 (Or.inr ⟨hx, hnew⟩))

omit [DecidableEq α] in
lemma not_passes (h : Sound next p s f) (htodo : f.todo = []) (ha : Reaches next s a) :
    p a = false := by
  have hdone : ∀ x ∈ f.seen, p x = false ∧ ∀ y ∈ next x, y ∈ f.seen := by
    intro x hx
    exact (h.done x hx).resolve_left (by simp [htodo])
  have hseen : a ∈ f.seen := by
    induction ha with
    | refl => exact h.start
    | tail _ hy ih => exact (hdone _ ih).2 _ hy
  exact (hdone a hseen).1

end Sound

/-- **The search ends** if only finitely many nodes can be reached, and it tells whether one of them
passes the test. -/
theorem search?_eq_some {U : Finset α} {test : α → Option Bool} {p : α → Bool}
    (hU : ∀ a, Reaches next s a → a ∈ U) (htest : ∀ a, Reaches next s a → test a = some (p a))
    {n : Nat} (h : Sound next p s f) (hn : f.remaining U < n) :
    ∃ found, search? next test n f = some found ∧ (found ↔ ∃ a, Reaches next s a ∧ p a) := by
  induction n generalizing f with
  | zero => omega
  | succ n ih =>
    rw [search?]
    cases htodo : f.todo with
    | nil =>
      refine ⟨false, rfl, by simp, fun hpass => ?_⟩
      obtain ⟨a, ha, hpa⟩ := hpass
      rw [h.not_passes htodo ha] at hpa
      cases hpa
    | cons a rest =>
      have hreach := h.reached a (h.pending a (htodo ▸ List.mem_cons_self))
      simp only [htest a hreach, Option.bind_eq_bind, Option.bind_some]
      cases hp : p a with
      | true => exact ⟨true, rfl, fun _ => ⟨a, hreach, hp⟩, fun _ => rfl⟩
      | false =>
        -- the node looked at is taken off the worklist, and meeting nodes keeps the count
        refine ih (h.round htodo hp) ?_
        rw [remaining_foldl fun x hx => hU x (hreach.tail hx)]
        simp only [remaining, htodo, List.length_cons] at hn ⊢
        omega

end Frontier

end StackTyping
