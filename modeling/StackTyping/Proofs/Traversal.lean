import StackTyping.Proofs.Catalog.Conservation
import StackTyping.Proofs.Catalog.Search
import StackTyping.Proofs.Slot.Commute
import StackTyping.Proofs.Worklist

/-!
Traversals of the hierarchy end.

The library reads a base or element link only if it leads to an earlier entry, so all its functions
end for that reason alone. Here the same traversals follow the links as they are stored, wherever
they lead, and enter an interface whenever it was not found before. Each is stopped after `n` rounds
or nested calls, and `none` stands for a run that is not over by then. In every catalog that can be
built they all end, after a number of rounds that is linear in the size of the catalog, with the
answer of the library. Base and element links do lead to earlier entries there, because a type is
added with links to types that exist; interface links may form cycles, but no interface is entered
twice. In a grown catalog the answers are those of the rules of subtyping.

A traversal has the name of the library function that it runs. What is asked of a single type, such
as whether it is an interface, is asked of the library.
-/

namespace StackTyping

/-! ### Links as they are stored -/

def Kind.map {α β : Type} (f : α → β) : Kind α → Kind β
  | .classType => .classType
  | .interface => .interface
  | .valueType p => .valueType p
  | .enumType => .enumType
  | .void => .void
  | .array e => .array (f e)
  | .pointer e => .pointer (f e)

def Slot.rank (a : Slot) : Nat := (a.ty.map Ty.rank).getD 0

namespace Traversal

variable (cat : Catalog)

/-- The kind of a type, with the element that is stored. -/
def kind : Ty → Kind Ty
  | .entry i =>
    match cat.entries[i]? with
    | some e => e.kind.map .entry
    | none => .void
  | .array e => .array e
  | .pointer e => .pointer e

def base? : Ty → Option Ty
  | .entry i => (cat.entries[i]?.bind (·.base?)).map .entry
  | .array _ => some .arrayBase
  | .pointer _ => none

/-! ### Chains and copies -/

/-- Climb from a type to the top of its chain; `below` are the types climbed past. -/
def climb : Nat → Ty → List Ty → Option (List Ty)
  | 0, _, _ => none
  | n + 1, t, below =>
    match base? cat t with
    | some b => climb n b (t :: below)
    | none => some (t :: below)

def baseChain (n : Nat) (t : Ty) : Option (List Ty) := climb cat n t []

/-- Compare two types and then, as long as they are built alike, their elements. -/
def equiv : Nat → Ty → Ty → Option Bool
  | 0, _, _ => none
  | n + 1, s, t =>
    if s = t then some true
    else
      match kind cat s, kind cat t with
      | .array x, .array y => equiv n x y
      | .pointer x, .pointer y => equiv n x y
      | _, _ => some false

/-! ### Interfaces -/

/-- Enter a node unless it was found before: note it, and then enter its targets in turn. -/
def enter (links : Links) : Nat → List Nat → Nat → Option (List Nat)
  | 0, _, _ => none
  | n + 1, found, i =>
    if found.contains i then some found
    else (links.targets i).foldlM (enter links n) (found ++ [i])

/-- Collect the interfaces that are declared on a type. -/
def collect (n : Nat) (found : List EntryId) (t : Ty) : Option (List EntryId) :=
  (cat.declaredInterfaces t).foldlM (enter cat.implements n) found

def interfaces (n : Nat) (t : Ty) : Option (List EntryId) := do
  let self := match t with
    | .entry i => if cat.isInterface t then [i] else []
    | _ => []
  (← baseChain cat n t).reverse.foldlM (collect cat n) self

/-! ### Subtyping -/

/-- The types that a search goes on with: the base type, and the interfaces when one is looked
for. -/
def next (forInterface : Bool) (t : Ty) : List Ty :=
  (base? cat t).toList ++ if forInterface then (cat.declaredInterfaces t).map .entry else []

def derives (n : Nat) (s t : Ty) : Option Bool :=
  Frontier.search? (next cat (cat.isInterface t)) (fun a => equiv cat n a t) n ⟨[s], [s]⟩

def subtype : Nat → Ty → Ty → Option Bool
  | 0, _, _ => none
  | n + 1, s, t => do
    if ← equiv cat n s t then return true
    match kind cat s, kind cat t with
    | .array x, .array y =>
      if cat.isReferenceElement x && cat.isReferenceElement y then subtype n x y else return false
    | _, _ =>
      if cat.isExact s || cat.isExact t then return false
      if t == .enumBase && cat.isEnum s || t == .arrayBase && cat.isArray s || cat.isTop t then
        return true
      derives cat n s t

/-! ### Merging -/

/-- The pairs up to the first that are not equivalent. -/
def agreeing (n : Nat) : List (Ty × Ty) → Option (List (Ty × Ty))
  | [] => some []
  | p :: ps => do
    if ← equiv cat n p.1 p.2 then return p :: (← agreeing n ps)
    return []

def sharedInterface (n : Nat) (s t : Ty) : Option Ty := do
  let (first, second) := if cat.nameOf t < cat.nameOf s then (t, s) else (s, t)
  let others ← interfaces cat n second
  let shared? ← (← interfaces cat n first).findM? fun i =>
    others.anyM fun j => equiv cat n (.entry i) (.entry j)
  return match shared? with
    | some i => .entry i
    | none => .object

def sharedBase? (n : Nat) (s t : Ty) : Option (Option Ty) := do
  let chain ← baseChain cat n s
  let chain' ← baseChain cat n t
  if chain.head?.any cat.isTop then
    return (← agreeing cat n (chain.zip chain')).getLast?.map (·.1)
  return none

def slotEquiv (n : Nat) (a b : Slot) : Option Bool :=
  if a.boxed = b.boxed then
    match a.ty, b.ty with
    | none, none => some true
    | some s, some t => equiv cat n s t
    | _, _ => some false
  else some false

def merge : Nat → Slot → Slot → Option (Except Fault Slot)
  | 0, _, _ => none
  | n + 1, a, b =>
    match a.ty, b.ty with
    | none, _ => some (if b.isInline cat then .error (.noCommonType a b) else .ok b)
    | some _, none => some (if a.isInline cat then .error (.noCommonType a b) else .ok a)
    | some s, some t => do
      if ← slotEquiv cat n (a.weak cat) (b.weak cat) then return .ok (a.weak cat)
      if a.isRigid cat || b.isRigid cat then return .error (.noCommonType a b)
      match kind cat s, kind cat t with
      | .array x, .array y =>
        if cat.isBoxable x || cat.isBoxable y then return .ok (.declared .arrayBase)
        let merged ← merge n (.declared x) (.declared y)
        return do
          let element ← merged
          match element.ty with
          | some e => .ok (.declared (.array e))
          | none => .error (.noCommonType a b)
      | k, l =>
        if k.isInterface || l.isInterface then
          return .ok (.declared (← sharedInterface cat n s t))
        return match ← sharedBase? cat n s t with
          | some u => .ok (.boxedOf cat u)
          | none => .error (.noCommonType a b)

variable {cat : Catalog} {s t : Ty} {e : Entry} {n : Nat}

/-- A type that is its own base has a chain without end. -/
lemma climb_eq_none (h : base? cat t = some t) (n : Nat) (below : List Ty) :
    climb cat n t below = none := by
  induction n generalizing below with
  | zero => rfl
  | succ n ih =>
    rw [climb, h]
    exact ih (t :: below)

/-! ### Interfaces are entered once -/

/-- **Nodes entered in turn are found in the order of the walk.** Every nested call is for one more
node of those that are ever entered, so there are no more levels than such nodes. -/
lemma foldlM_enter {links : Links} {U : Finset Nat} (hU : ∀ i j, (i, j) ∈ links → j ∈ U)
    {found todo : List Nat} (htodo : ∀ i ∈ todo, i ∈ U) (hn : (U \ found.toFinset).card < n) :
    todo.foldlM (enter links n) found = some (links.visit found todo) := by
  -- the outer induction is on the nesting of calls, the inner one on the nodes of one call
  induction n generalizing found todo with
  | zero => omega
  | succ n ih =>
    induction todo generalizing found with
    | nil =>
      rw [Links.visit]
      rfl
    | cons i todo ihtodo =>
      have hrest : ∀ j ∈ todo, j ∈ U := fun j hj => htodo j (List.mem_cons_of_mem _ hj)
      rw [List.foldlM_cons, enter, Links.visit]
      split
      · exact ihtodo hrest hn
      · rename_i hi
        have hcard : (U \ (found ++ [i]).toFinset).card + 1 = (U \ found.toFinset).card := by
          have hinsert : (found ++ [i]).toFinset = insert i found.toFinset := by
            ext j
            simp
          rw [hinsert, card_sdiff_insert_add_one (htodo i List.mem_cons_self) (by simpa using hi)]
        rw [ih (fun j hj => hU i j (Links.mem_targets.1 hj)) (by omega), Links.visit_append]
        refine ihtodo hrest (Nat.lt_of_le_of_lt (Finset.card_le_card ?_) hn)
        refine Finset.sdiff_subset_sdiff subset_rfl fun j hj => ?_
        rw [List.mem_toFinset] at hj ⊢
        exact Links.subset_visit (List.mem_append_left _ hj)

lemma collect_eq (hcat : cat.Closed) (hn : cat.entries.size < n) (found : List EntryId) (t : Ty) :
    collect cat n found t = some (cat.implements.visit found (cat.declaredInterfaces t)) := by
  refine foldlM_enter (fun i j hij => Finset.mem_range.2 (hcat.implements i j hij))
    (fun j hj => Finset.mem_range.2 (hcat.knows_interface hj)) ?_
  have hle := Finset.card_le_card (Finset.sdiff_subset (s := Finset.range cat.entries.size)
    (t := found.toFinset))
  rw [Finset.card_range] at hle
  omega

lemma foldlM_collect (hcat : cat.Closed) (hn : cat.entries.size < n) (found : List EntryId)
    (ts : List Ty) : ts.foldlM (collect cat n) found =
      some (cat.implements.visit found (ts.flatMap cat.declaredInterfaces)) := by
  induction ts generalizing found with
  | nil =>
    rw [List.flatMap_nil, Links.visit]
    rfl
  | cons t ts ih =>
    rw [List.foldlM_cons, collect_eq hcat hn, List.flatMap_cons, Links.visit_append]
    exact ih _

lemma lt_size_of_mem_interfaces (hcat : cat.Closed) {j : EntryId} (hj : j ∈ cat.interfaces t) :
    j < cat.entries.size := by
  rcases Catalog.mem_interfaces.1 hj with ⟨rfl, hint⟩ | ⟨a, i, -, hi, hij⟩
  · exact Catalog.lt_size_of_kind (by rw [Catalog.isInterface_iff.1 hint]; simp)
  · rcases Relation.ReflTransGen.cases_tail hij with rfl | ⟨k, -, hkj⟩
    · exact hcat.knows_interface hi
    · exact hcat.implements k j hkj

lemma rank_weak_le (hcat : cat.Built) (a : Slot) :
    (a.weak cat).rank ≤ a.rank + cat.entries.size := by
  have hsize := hcat.size_le
  unfold Slot.weak
  split
  · rename_i p _
    have hp : (Slot.ofPrimitive p.weak).rank < 23 := by cases p <;> decide
    omega
  · omega

lemma findM?_eq {l : List EntryId} {test : EntryId → Option Bool} {p : EntryId → Bool}
    (h : ∀ i ∈ l, test i = some (p i)) : l.findM? test = some (l.find? p) := by
  induction l with
  | nil => rfl
  | cons i l ih =>
    rw [List.findM?, h i List.mem_cons_self, List.find?_cons,
      ih fun j hj => h j (List.mem_cons_of_mem _ hj)]
    cases p i <;> rfl

lemma not_arrays (h : ∀ x y, cat.kind s = .array x → cat.kind t = .array y → False) :
    ¬(cat.isArray s ∧ cat.isArray t) := by
  rintro ⟨hs, ht⟩
  obtain ⟨x, hx⟩ := Catalog.isArray_iff.1 hs
  obtain ⟨y, hy⟩ := Catalog.isArray_iff.1 ht
  exact h x y hx hy

/-! ### Links lead to earlier entries -/

/-- Base and element links lead to earlier entries. -/
structure Earlier (cat : Catalog) : Prop where
  base : ∀ (i : EntryId) (e : Entry) b, cat.entries[i]? = some e → e.base? = some b → b < i
  element : ∀ (i : EntryId) (e : Entry) x, cat.entries[i]? = some e → e.kind.element? = some x →
    x < i

lemma Earlier.append (h : Earlier cat) (hbase : ∀ b, e.base? = some b → b < cat.entries.size)
    (hkind : ∀ x, e.kind.element? = some x → x < cat.entries.size) :
    Earlier (cat.append e).2 := by
  have hcases (i e') (hi : (cat.append e).2.entries[i]? = some e') :
      i = cat.entries.size ∧ e' = e ∨ cat.entries[i]? = some e' := by
    by_cases hlast : i = cat.entries.size
    · subst hlast
      rw [Catalog.getElem?_append_self] at hi
      exact Or.inl ⟨rfl, (Option.some.inj hi).symm⟩
    · rw [Catalog.getElem?_append_of_ne hlast] at hi
      exact Or.inr hi
  refine ⟨fun i e' b hi hb => ?_, fun i e' x hi hx => ?_⟩
  · rcases hcases i e' hi with ⟨rfl, rfl⟩ | hi
    · exact hbase b hb
    · exact h.base i e' b hi hb
  · rcases hcases i e' hi with ⟨rfl, rfl⟩ | hi
    · exact hkind x hx
    · exact h.element i e' x hi hx

lemma Earlier.core : Earlier Catalog.core := by
  have hcore : ∀ i < 23, ∀ e ∈ Catalog.core.entries[i]?,
      (∀ b ∈ e.base?, b < i) ∧ ∀ x ∈ e.kind.element?, x < i := by
    decide +kernel
  refine ⟨fun i e b hi hb => ?_, fun i e x hi hx => ?_⟩
  · exact (hcore i (Array.getElem?_eq_some_iff.1 hi).1 e hi).1 b hb
  · exact (hcore i (Array.getElem?_eq_some_iff.1 hi).1 e hi).2 x hx

lemma Earlier.apply {op : Catalog.Op} (h : Earlier cat) (hcat : cat.Closed)
    (hlinks : op.Linked cat) : Earlier (cat.apply op) := by
  cases op with
  | declareType name kind base? =>
    rw [Catalog.apply, Catalog.declareType]
    split
    · exact h
    · exact h.append hlinks.2 hlinks.1
  | newArray element =>
    refine h.append (fun b hb => ?_) fun x hx => ?_
    · exact Option.some.inj hb ▸ hcat.array
    · exact Option.some.inj hx ▸ hlinks
  | newPointer element =>
    exact h.append (fun b hb => by cases hb) fun x hx => Option.some.inj hx ▸ hlinks
  | implement | declareMethod | declareField => exact ⟨h.base, h.element⟩

/-- **Types are added with links to types that exist.** -/
lemma earlier_of_built (h : cat.Built) : Earlier cat := by
  induction h with
  | refl => exact .core
  | tail hbuilt hstep ih =>
    obtain ⟨op, hlinks, -⟩ := hstep
    exact ih.apply (Catalog.Built.closed hbuilt) hlinks

namespace Earlier

variable (h : Earlier cat)
include h

lemma kind_eq (t : Ty) : kind cat t = cat.kind t := by
  cases t with
  | entry i =>
    simp only [kind, Catalog.kind]
    cases hi : cat.entries[i]? with
    | none => rfl
    | some e =>
      cases hk : e.kind with
      | array x | pointer x =>
        have hlt : x < i := h.element i e x hi (by rw [hk]; rfl)
        simp only [hk, Kind.map, Kind.before, if_pos hlt]
      | _ => simp only [hk, Kind.map, Kind.before]
  | array x => rfl
  | pointer x => rfl

lemma base?_eq (t : Ty) : base? cat t = cat.base? t := by
  cases t with
  | entry i =>
    simp only [base?, Catalog.base?, Catalog.baseId?]
    cases hi : cat.entries[i]? with
    | none => rfl
    | some e =>
      simp only [Option.bind_some]
      cases hb : e.base? with
      | none => rfl
      | some b => rw [Option.filter_some_pos (by simpa using h.base i e b hi hb)]
  | array x => rfl
  | pointer x => rfl

/-! ### Chains and copies -/

lemma climb_eq (hn : t.rank < n) (below : List Ty) :
    climb cat n t below = some (cat.baseChain t ++ below) := by
  induction n generalizing t below with
  | zero => omega
  | succ n ih =>
    rw [climb, h.base?_eq]
    cases hb : cat.base? t with
    | none => rw [Catalog.baseChain_of_none hb, List.singleton_append]
    | some b =>
      have hlt := Catalog.rank_base?_lt hb
      rw [Catalog.baseChain_of_some hb, List.append_assoc, List.singleton_append]
      exact ih (by omega) (t :: below)

lemma baseChain_eq (hn : t.rank < n) : baseChain cat n t = some (cat.baseChain t) := by
  rw [baseChain, h.climb_eq hn, List.append_nil]

lemma equiv_eq (hn : s.rank < n) (t : Ty) : equiv cat n s t = some (cat.equiv s t) := by
  induction n generalizing s t with
  | zero => omega
  | succ n ih =>
    rw [equiv]
    split
    · rename_i hst
      rw [hst, Catalog.equiv_refl]
    · rename_i hst
      rw [h.kind_eq, h.kind_eq]
      split
      · rename_i x y hs ht
        have hlt := Catalog.rank_array_lt hs
        rw [ih (by omega), Bool.eq_iff_iff.2 (Catalog.equiv_array_iff hs ht)]
      · rename_i x y hs ht
        have hlt := Catalog.rank_pointer_lt hs
        rw [ih (by omega), Bool.eq_iff_iff.2 (Catalog.equiv_pointer_iff hs ht)]
      · rename_i harray hpointer
        have hne : ¬cat.equiv s t := by
          intro heq
          rcases Catalog.equiv_cases heq with heq | ⟨x, y, hs, ht, -⟩ | ⟨x, y, hs, ht, -⟩
          · exact hst heq
          · exact harray x y hs ht
          · exact hpointer x y hs ht
        rw [Bool.not_eq_true] at hne
        rw [hne]

lemma interfaces_eq (hcat : cat.Closed) (ht : t.rank < n) (hn : cat.entries.size < n) :
    interfaces cat n t = some (cat.interfaces t) := by
  unfold interfaces
  simp only [h.baseChain_eq ht, Option.bind_eq_bind, Option.bind_some]
  rw [foldlM_collect hcat hn]
  rfl

/-! ### Subtyping -/

lemma mem_next {forInterface : Bool} : t ∈ next cat forInterface s ↔
    cat.base? s = some t ∨ forInterface ∧ ∃ j ∈ cat.declaredInterfaces s, t = .entry j := by
  rw [next, h.base?_eq, List.mem_append, Option.mem_toList]
  cases forInterface <;> simp [eq_comm]

/-- A search stays among the entries and the type it starts at. -/
lemma eq_or_entry_of_reaches (hcat : cat.Closed) {forInterface : Bool}
    (ht : Frontier.Reaches (next cat forInterface) s t) :
    t = s ∨ ∃ j < cat.entries.size, t = .entry j := by
  rcases Relation.ReflTransGen.cases_tail ht with hts | ⟨u, -, hlink⟩
  · exact Or.inl hts
  · refine Or.inr ?_
    rcases h.mem_next.1 hlink with hb | ⟨-, j, hj, rfl⟩
    · obtain ⟨j, rfl⟩ := Catalog.Link.exists_entry (Or.inl hb)
      exact ⟨j, hcat.knows_base hb, rfl⟩
    · exact ⟨j, hcat.knows_interface hj, rfl⟩

/-- The search finds what the library looks for among base types and interfaces. -/
lemma exists_reaches_iff : (∃ a, Frontier.Reaches (next cat (cat.isInterface t)) s a ∧
    cat.equiv a t) ↔ cat.derives s t := by
  rw [Catalog.derives_iff_exists]
  cases hint : cat.isInterface t with
  -- all links are followed, and what is equivalent to an interface is the interface
  | true =>
    have hlink : (fun a b => b ∈ next cat true a) = cat.Link := by
      funext a b
      simp [h.mem_next, Catalog.Link]
    simp only [Frontier.Reaches, hlink, if_true]
    constructor
    · rintro ⟨a, ha, heq⟩
      have hplain : cat.element? t = none := by
        rw [Catalog.element?, Catalog.isInterface_iff.1 hint]
        rfl
      obtain rfl := Catalog.eq_of_equiv heq hplain
      cases a with
      | entry i => exact ⟨i, ha, heq⟩
      | array x => cases hplain
      | pointer x => cases hplain
    · rintro ⟨i, hi, heq⟩
      exact ⟨.entry i, hi, heq⟩
  | false =>
    have hlink : (fun a b => b ∈ next cat false a) = fun a b => cat.base? a = some b := by
      funext a b
      simp [h.mem_next]
    simp only [Frontier.Reaches, hlink, Bool.false_eq_true, if_false]
    rfl

lemma derives_eq (hcat : cat.Closed) (hs : s.rank < n) (hn : cat.entries.size + 1 < n) (t : Ty) :
    derives cat n s t = some (cat.derives s t) := by
  let entries := (Finset.range cat.entries.size).image Ty.entry
  have hU (a) (ha : Frontier.Reaches (next cat (cat.isInterface t)) s a) :
      a ∈ insert s entries := by
    rcases h.eq_or_entry_of_reaches hcat ha with rfl | ⟨j, hj, rfl⟩
    · exact Finset.mem_insert_self a entries
    · exact Finset.mem_insert_of_mem (Finset.mem_image_of_mem _ (Finset.mem_range.2 hj))
  have htest (a) (ha : Frontier.Reaches (next cat (cat.isInterface t)) s a) :
      equiv cat n a t = some (cat.equiv a t) := by
    rcases h.eq_or_entry_of_reaches hcat ha with rfl | ⟨j, hj, rfl⟩
    · exact h.equiv_eq hs t
    · exact h.equiv_eq (Nat.lt_trans hj (by omega)) t
  have hremaining : Frontier.remaining (insert s entries) ⟨[s], [s]⟩ < n := by
    have hle := Frontier.remaining_single_le entries s
    have hcard : entries.card ≤ (Finset.range cat.entries.size).card := Finset.card_image_le
    rw [Finset.card_range] at hcard
    omega
  obtain ⟨found, hfound, hiff⟩ := Frontier.search?_eq_some hU htest (.single _ _ s) hremaining
  rw [derives, hfound, Option.some.injEq, Bool.eq_iff_iff, hiff, h.exists_reaches_iff]

lemma subtype_eq (hcat : cat.Closed) (hn : s.rank + cat.entries.size + 2 < n) (t : Ty) :
    subtype cat n s t = some (cat.subtype s t) := by
  induction n generalizing s t with
  | zero => omega
  | succ n ih =>
    rw [subtype, h.equiv_eq (by omega), h.kind_eq, h.kind_eq]
    simp only [Option.bind_eq_bind, Option.bind_some]
    cases heq : cat.equiv s t with
    | true =>
      rw [Catalog.subtype_of_equiv heq]
      rfl
    | false =>
      rw [if_neg Bool.false_ne_true]
      split
      · rename_i x y hs ht
        have hlt := Catalog.rank_array_lt hs
        have hxy : cat.subtype s t =
            (cat.isReferenceElement x && cat.isReferenceElement y && cat.subtype x y) := by
          have hne := Bool.eq_iff_iff.2 (Catalog.equiv_array_iff hs ht)
          rw [Bool.eq_iff_iff, Catalog.subtype_array_iff hs ht, ← hne, heq]
          simp [and_assoc]
        rw [hxy, ih (by omega)]
        cases cat.isReferenceElement x && cat.isReferenceElement y <;> rfl
      · rename_i hna
        rw [Catalog.subtype_of_not_arrays (not_arrays hna), heq,
          h.derives_eq hcat (by omega) (by omega), Bool.false_or, ← Bool.not_or]
        cases cat.isExact s || cat.isExact t with
        | true => rfl
        | false =>
          cases t == .enumBase && cat.isEnum s || t == .arrayBase && cat.isArray s ||
            cat.isTop t <;> rfl

/-! ### Merging -/

lemma agreeing_eq {ps : List (Ty × Ty)} (hn : ∀ p ∈ ps, p.1.rank < n) :
    agreeing cat n ps = some (ps.takeWhile fun p => cat.equiv p.1 p.2) := by
  induction ps with
  | nil => rfl
  | cons p ps ih =>
    rw [agreeing, h.equiv_eq (hn p List.mem_cons_self),
      ih fun q hq => hn q (List.mem_cons_of_mem _ hq), List.takeWhile_cons]
    cases cat.equiv p.1 p.2 <;> rfl

lemma sharedInterface_eq (hcat : cat.Closed) (hs : s.rank < n) (ht : t.rank < n)
    (hn : cat.entries.size < n) :
    sharedInterface cat n s t = some (cat.sharedInterface s t) := by
  unfold sharedInterface Catalog.sharedInterface
  generalize hpair : (if cat.nameOf t < cat.nameOf s then (t, s) else (s, t)) = pair
  obtain ⟨first, second⟩ := pair
  obtain ⟨hfirst, hsecond⟩ : first.rank < n ∧ second.rank < n := by
    split at hpair <;> cases hpair
    · exact ⟨ht, hs⟩
    · exact ⟨hs, ht⟩
  have hshares (i) (hi : i ∈ cat.interfaces first) : (cat.interfaces second).anyM (fun j =>
      equiv cat n (.entry i) (.entry j)) =
        some ((cat.interfaces second).any fun j => cat.equiv (.entry i) (.entry j)) := by
    have hlt : (Ty.entry i).rank < n := Nat.lt_trans (lt_size_of_mem_interfaces hcat hi) hn
    simp only [h.equiv_eq hlt]
    exact List.anyM_pure
  simp only [h.interfaces_eq hcat hfirst hn, h.interfaces_eq hcat hsecond hn,
    Option.bind_eq_bind, Option.bind_some, findM?_eq hshares]
  rfl

lemma sharedBase?_eq (hs : s.rank < n) (ht : t.rank < n) :
    sharedBase? cat n s t = some (cat.sharedBase? s t) := by
  have hchain (p) (hp : p ∈ (cat.baseChain s).zip (cat.baseChain t)) : p.1.rank < n := by
    have hextends := Catalog.mem_baseChain.1 (List.of_mem_zip hp).1
    rcases Catalog.eq_or_rank_lt_of_extends hextends with heq | hlt
    · exact heq ▸ hs
    · exact hlt.trans hs
  unfold sharedBase? Catalog.sharedBase?
  simp only [h.baseChain_eq hs, h.baseChain_eq ht, h.agreeing_eq hchain, Option.bind_eq_bind,
    Option.bind_some]
  split <;> rfl

lemma slotEquiv_eq {a b : Slot} (hn : a.rank < n) :
    slotEquiv cat n a b = some (a.equiv cat b) := by
  unfold slotEquiv Slot.equiv
  split
  · rename_i hboxed
    rw [hboxed, beq_self_eq_true, Bool.true_and]
    cases ha : a.ty with
    | none => cases b.ty <;> rfl
    | some s =>
      have hs : s.rank < n := by simpa [Slot.rank, ha] using hn
      cases b.ty <;> simp only [h.equiv_eq hs]
  · rename_i hboxed
    rw [beq_false_of_ne hboxed, Bool.false_and]

lemma merge_eq (hcat : cat.Built) {a b : Slot} (hn : a.rank + b.rank + cat.entries.size + 2 < n) :
    merge cat n a b = some (a.merge cat b) := by
  induction n generalizing a b with
  | zero => omega
  | succ n ih =>
    rcases Slot.merge_cases cat a b with ha | ⟨s, ha, hb⟩ | ⟨s, t, ha, hb, hab⟩
    · rw [merge, Slot.merge_null_left ha]
      simp only [ha]
    · rw [merge, Slot.merge_null_right ha hb]
      simp only [ha, hb]
    -- neither is `null`; the weak forms are no deeper than the slots or the core types
    · have hs : a.rank = s.rank := by simp [Slot.rank, ha]
      have ht : b.rank = t.rank := by simp [Slot.rank, hb]
      have hweak : (a.weak cat).rank < n := by
        have hle := rank_weak_le hcat a
        omega
      rw [merge]
      simp only [ha, hb, h.slotEquiv_eq hweak, Option.bind_eq_bind, Option.bind_some]
      rcases hab with hsame | ⟨hne, hrigid⟩ | hapart
      · rw [if_pos hsame, Slot.merge_same ha hb hsame]
        rfl
      · rw [if_neg (by simp [hne]), if_pos hrigid, Slot.merge_rigid ha hb hne hrigid]
        rfl
      · rw [if_neg (by simp [hapart.differ]),
          if_neg (by simp [hapart.left_free, hapart.right_free]), h.kind_eq, h.kind_eq]
        split
        · rename_i x y hx hy
          have hxs := Catalog.rank_array_lt hx
          have hyt := Catalog.rank_array_lt hy
          have helements : (Slot.declared x).rank + (Slot.declared y).rank = x.rank + y.rank := rfl
          rw [hapart.merge_arrays hx hy, ih (by omega)]
          split <;> rfl
        · rename_i hna
          rw [hapart.merge_named (not_arrays hna), h.sharedBase?_eq (by omega) (by omega),
            h.sharedInterface_eq hcat.closed (by omega) (by omega) (by omega),
            Catalog.isInterface, Catalog.isInterface]
          split <;> rfl

end Earlier

/-! ### Every traversal ends -/

/-- Links lead to earlier entries, and every traversal ends with the answer of the library after a
bounded number of rounds or nested calls. -/
structure Terminates (cat : Catalog) : Prop where
  earlier : Earlier cat
  baseChain : ∀ n t, t.rank < n → baseChain cat n t = some (cat.baseChain t)
  equiv : ∀ n s t, s.rank < n → equiv cat n s t = some (cat.equiv s t)
  /-- Whatever was found before. -/
  collect : ∀ n found t, cat.entries.size < n →
    collect cat n found t = some (cat.implements.visit found (cat.declaredInterfaces t))
  interfaces : ∀ n t, t.rank < n → cat.entries.size < n →
    interfaces cat n t = some (cat.interfaces t)
  derives : ∀ n s t, s.rank < n → cat.entries.size + 1 < n →
    derives cat n s t = some (cat.derives s t)
  subtype : ∀ n s t, s.rank + cat.entries.size + 2 < n →
    subtype cat n s t = some (cat.subtype s t)
  merge : ∀ n a b, a.rank + b.rank + cat.entries.size + 2 < n →
    merge cat n a b = some (a.merge cat b)

/-- **Traversals end in every catalog that can be built**, cycles of interfaces included. -/
theorem terminates_of_built (h : cat.Built) : Terminates cat := by
  have hclosed := h.closed
  have hearlier := earlier_of_built h
  exact {
    earlier := hearlier
    baseChain := fun n t => hearlier.baseChain_eq
    equiv := fun n s t hs => hearlier.equiv_eq hs t
    collect := fun n found t hn => collect_eq hclosed hn found t
    interfaces := fun n t => hearlier.interfaces_eq hclosed
    derives := fun n s t hs hn => hearlier.derives_eq hclosed hs hn t
    subtype := fun n s t hn => hearlier.subtype_eq hclosed hn t
    merge := fun n a b => hearlier.merge_eq h }

/-- Two interfaces, a class, arrays of the class and of the second interface, and a named array that
extends the class. -/
def ringTypes : Catalog :=
  let cat := (Catalog.core.declareInterface ⟨"N.Ring"⟩).2
  let cat := (cat.declareInterface ⟨"N.Knot"⟩).2
  let cat := (cat.declareClass ⟨"N.Rope"⟩ EntryId.object).2
  let cat := (cat.newArray 25).2
  let cat := (cat.newArray 24).2
  (cat.declareType ⟨"N.Coil"⟩ (.array 26) (some 25)).2

/-- The interfaces extend each other and the first extends itself. The class implements the first,
and the named array implements itself. -/
def ringCatalog : Catalog :=
  let cat := ((ringTypes.implement 23 24).implement 24 23).implement 23 23
  (cat.implement 25 23).implement 28 28

lemma built_ringCatalog : ringCatalog.Built := by
  have htypes : ringTypes.Built := by
    refine (((((Catalog.Built.core.apply (.declareInterface ⟨"N.Ring"⟩) ?_).apply
      (.declareInterface ⟨"N.Knot"⟩) ?_).apply (.declareClass ⟨"N.Rope"⟩ EntryId.object) ?_).apply
        (.newArray 25) ?_).apply (.newArray 24) ?_).apply
          (.declareType ⟨"N.Coil"⟩ (.array 26) (some 25)) ?_ <;> decide +kernel
  refine ((((htypes.apply (.implement 23 24) ?_).apply (.implement 24 23) ?_).apply
    (.implement 23 23) ?_).apply (.implement 25 23) ?_).apply (.implement 28 28) ?_ <;>
      decide +kernel

/-- The named array has itself and, through the class it extends, the ring of interfaces. Arrays of
the class are below arrays of the second interface and merge with them; no interface is below the
class. -/
theorem terminates_of_built_ring :
    interfaces ringCatalog 60 (.entry 28) = some [28, 23, 24] ∧
      subtype ringCatalog 60 (.entry 26) (.entry 27) = some true ∧
      subtype ringCatalog 60 (.entry 23) (.entry 25) = some false ∧
      merge ringCatalog 90 (.declared (.entry 26)) (.declared (.entry 27))
        = some (.ok (.declared (.array (.entry 24)))) := by
  have h := terminates_of_built built_ringCatalog
  have hsize : ringCatalog.entries.size = 29 := by decide +kernel
  rw [h.interfaces 60 _ (by decide) (by omega), h.subtype 60 _ _ (by rw [hsize]; decide),
    h.subtype 60 _ _ (by rw [hsize]; decide), h.merge 90 _ _ (by rw [hsize]; decide)]
  decide +kernel

/-! ### Grown catalogs -/

variable {P : EntryId → Prop}

/-- **The traversal for a supertype decides the rules of subtyping** in every grown catalog. -/
theorem subtype_decides_below (hcat : cat.Grown P) (hn : s.rank + cat.entries.size + 2 < n)
    (t : Ty) :
    (subtype cat n s t = some true ↔ cat.Below s t) ∧
      (subtype cat n s t = some false ↔ ¬cat.Below s t) := by
  have hbuilt := hcat.built
  have hbelow : cat.subtype s t ↔ cat.Below s t :=
    ⟨hcat.lawful.below_of_subtype, hcat.lawful.subtype_of_below⟩
  rw [(earlier_of_built hbuilt).subtype_eq hbuilt.closed hn, ← hbelow]
  simp

/-- **The traversal for interfaces collects what the one for supertypes finds**, each interface
once. -/
theorem interfaces_collects_supertypes (hcat : cat.Grown P) (ht : cat.isVoid t = false)
    (hn : t.rank + cat.entries.size + 2 < n) :
    ∃ found, interfaces cat n t = some found ∧ found.Nodup ∧
      ∀ j, j ∈ found ↔ cat.isInterface (.entry j) ∧ subtype cat n t (.entry j) = some true := by
  have hbuilt := hcat.built
  have hlaw := hcat.lawful
  have hearlier := earlier_of_built hbuilt
  refine ⟨cat.interfaces t, hearlier.interfaces_eq hbuilt.closed (by omega) (by omega),
    Catalog.nodup_interfaces t, fun j => ?_⟩
  rw [hearlier.subtype_eq hbuilt.closed hn, Option.some.injEq, Catalog.isInterface_iff]
  constructor
  · intro hj
    have hk := hlaw.kind_of_mem_interfaces hj
    exact ⟨hk, (hlaw.subtype_interface_iff ht hk).2 ((hlaw.mem_interfaces_iff hk).1 hj)⟩
  · rintro ⟨hk, hsub⟩
    exact (hlaw.mem_interfaces_iff hk).2 ((hlaw.subtype_interface_iff ht hk).1 hsub)

end Traversal

end StackTyping
