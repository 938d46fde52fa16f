import StackTyping.Proofs.Catalog.Conservation
import StackTyping.Proofs.Verify.Congruence

/-!
Verdicts do not depend on what is added to a catalog later.

Two catalogs of which one grew out of the other answer alike about the types that the earlier one
knows. So types that are known correspond to themselves, and what is built on the answers is the
same in both: where slots merge, whether a body is accepted, with which stacks on entry to its
instructions, or for what reason it is refused.

Bodies see more of a catalog than the hierarchy of types: the `Invoke` method of a delegate. An
entry that has one keeps it, for the first one counts. One that has none must not be given one, for
then its delegates can be made.
-/

namespace StackTyping

namespace Catalog

variable {cat later : Catalog} {i : EntryId} {t : Ty}

/-- The types that a catalog knows, each related to itself. -/
def SameKnown (cat : Catalog) (s t : Ty) : Prop := s = t ∧ cat.Knows s

lemma sameKnown_self (ht : cat.Knows t) : cat.SameKnown t t := ⟨rfl, ht⟩

/-! ### The hierarchy -/

/-- **Known types correspond** to themselves in every later catalog, as long as none of them is
declared to implement an interface. -/
theorem corresponds_of_grows (hcat : Built cat)
    (h : Grows (fun _ op => op.KeepsInterfaces cat.entries.size) cat later) :
    Corresponds cat.SameKnown cat later := by
  have hclosed := hcat.closed
  have hprec := h.precedes
  have halike := hprec.alike hclosed
  have hint := hprec.interfaces hclosed
  have hdeclared (t) (ht : cat.Knows t) := h.declaredInterfaces_eq ht
  constructor
  case toSameKinds =>
    refine ⟨?_⟩
    rintro s _ ⟨rfl, hs⟩
    rw [halike.kind_eq s hs]
    exact Kind.related_self fun e he => sameKnown_self (knows_element hs he)
  case core => exact fun i hi => sameKnown_self (Nat.lt_of_lt_of_le hi hcat.size_le)
  case array_of =>
    rintro s _ ⟨rfl, hs⟩
    exact sameKnown_self hs
  case pointer_of =>
    rintro s _ ⟨rfl, hs⟩
    exact sameKnown_self hs
  case nameOf =>
    rintro s _ ⟨rfl, hs⟩
    exact (hprec.nameOf_eq halike hs).symm
  case isTop =>
    rintro s _ ⟨rfl, hs⟩
    rw [isTop, isTop, halike.kind_eq s hs, halike.base?_eq s hs]
  case baseChain =>
    rintro s _ ⟨rfl, hs⟩
    rw [halike.baseChain_eq hs]
    refine List.forall₂_same.2 fun a ha => sameKnown_self ?_
    exact (halike.extends_mono hs (mem_baseChain.1 ha)).1
  case interfaces =>
    rintro s _ ⟨rfl, hs⟩
    exact (halike.interfaces_eq hint hdeclared hs).symm
  case interface =>
    rintro s _ ⟨rfl, hs⟩ i hi
    exact sameKnown_self (halike.inherits_mono hint hs (inherits_of_mem_interfaces hi)).1
  case equiv =>
    rintro s _ t _ ⟨rfl, hs⟩ ⟨rfl, ht⟩
    exact (halike.equiv_eq hs ht).symm
  case subtype =>
    rintro s _ t _ ⟨rfl, hs⟩ ⟨rfl, ht⟩
    exact (hprec.subtype_eq hclosed hdeclared hs ht).symm

/-! ### Methods -/

/-- No entry before position `n` is declared to implement an interface, or is given its first
`Invoke` method. -/
def Op.Conserves (n : EntryId) (cat : Catalog) : Op → Prop
  | implement type _ => n ≤ type
  | declareMethod m => m.declaring < n → m.name = .invoke →
    (cat.findMethod? m.declaring .invoke).isSome
  | declareType .. | newArray _ | newPointer _ | declareField _ => True

lemma Op.Conserves.keepsInterfaces {n : EntryId} {op : Op} (h : op.Conserves n cat) :
    op.KeepsInterfaces n := by
  cases op with
  | implement type interface => exact h
  | _ => trivial

lemma methodsOf_declareMethod (m : Method) : (cat.declareMethod m).methodsOf i =
    cat.methodsOf i ++ if m.declaring == i then [(cat.methods.size, m)] else [] := by
  unfold methodsOf declareMethod
  rw [Array.toList_push, List.zipIdx_append, List.filterMap_append]
  congr 1
  by_cases hi : m.declaring = i
  · simp [hi]
  · simp [hi]

lemma methods_apply {op : Op} (h : ∀ m, op ≠ .declareMethod m) :
    (cat.apply op).methods = cat.methods := by
  cases op with
  | declareMethod m => exact absurd rfl (h m)
  | declareType name kind base? =>
    rw [apply, declareType]
    split <;> rfl
  | _ => rfl

/-- The first method under a name counts. -/
lemma findMethod?_apply {n : EntryId} {op : Op} (h : op.Conserves n cat) (hi : i < n) :
    (cat.apply op).findMethod? i .invoke = cat.findMethod? i .invoke := by
  cases op with
  | declareMethod m =>
    rw [apply, findMethod?, methodsOf_declareMethod, List.find?_append, ← findMethod?]
    by_cases hm : m.declaring = i ∧ m.name = .invoke
    · obtain ⟨rfl, hname⟩ := hm
      exact Option.or_of_isSome (h hi hname)
    · have hnone : (if m.declaring == i then [(cat.methods.size, m)] else []).find?
          (·.2.name == MemberName.invoke) = none := by
        split
        · rename_i hi
          have hname : m.name ≠ .invoke := fun hname => hm ⟨eq_of_beq hi, hname⟩
          simp [hname]
        · rfl
      rw [hnone, Option.or_none]
  | _ => rw [findMethod?, methodsOf, methods_apply (by simp), ← methodsOf, ← findMethod?]

lemma Grows.findMethod?_eq {n : EntryId} (h : Grows (fun c op => op.Conserves n c) cat later)
    (hi : i < n) : later.findMethod? i .invoke = cat.findMethod? i .invoke := by
  induction h with
  | refl => rfl
  | tail _ hstep ih =>
    obtain ⟨op, -, hop⟩ := hstep
    rw [findMethod?_apply hop hi, ih]

/-- The `Invoke` methods of a catalog name types that it knows. -/
def KnowsInvoke (cat : Catalog) : Prop :=
  ∀ i n m, cat.findMethod? i .invoke = some (n, m) → ∀ t ∈ m.types, cat.Knows t

lemma KnowsInvoke.sameInvoke (hmethods : cat.KnowsInvoke)
    (h : Grows (fun c op => op.Conserves cat.entries.size c) cat later) :
    SameInvoke cat.SameKnown cat later :=
  fun i hi => ⟨(h.findMethod?_eq hi.2).symm,
    fun n m hm t ht => sameKnown_self (hmethods i n m hm t ht)⟩

end Catalog

/-! ### Slots and bodies -/

variable {cat later : Catalog}

/-- **Merging is conservative**: slots of known types merge as they did before, and so do those that
do not. -/
theorem Slot.merge_conservative {a b : Slot} (hcat : cat.Built)
    (h : cat.Grows (fun _ op => op.KeepsInterfaces cat.entries.size) later)
    (ha : ∀ t ∈ a.ty, cat.Knows t) (hb : ∀ t ∈ b.ty, cat.Knows t) :
    a.merge later b = a.merge cat b := by
  have hmerge := (Catalog.corresponds_of_grows hcat h).slot_merge
    (Slot.related_self fun t ht => Catalog.sameKnown_self (ha t ht))
    (Slot.related_self fun t ht => Catalog.sameKnown_self (hb t ht))
  exact (hmerge.eq_of_eq (fun _ _ => Fault.Related.eq_of_eq fun _ _ => And.left)
    fun _ _ => Slot.Related.eq_of_eq fun _ _ => And.left).symm

lemma Rejection.Related.eq_of_eq {T : Ty → Ty → Prop} {r r' : Rejection}
    (hT : ∀ s t, T s t → s = t) (h : r.Related T r') : r = r' := by
  obtain ⟨i?, f⟩ := r
  obtain ⟨j?, g⟩ := r'
  obtain ⟨rfl, hfg⟩ := h
  exact congrArg (Rejection.mk i?) (Fault.Related.eq_of_eq hT hfg)

/-- **Verdicts are conservative.** A body that names only types of a catalog is accepted in a later
one if and only if it was accepted before, with the same stacks on entry to its instructions, and
where it is refused, it is refused at the same instruction, for the same reason and in the same
words. -/
theorem verify_conservative {body : Body} (hcat : cat.Built) (hmethods : cat.KnowsInvoke)
    (h : cat.Grows (fun c op => op.Conserves cat.entries.size c) later)
    (hbody : ∀ t ∈ body.types, cat.Knows t) (settings : Settings) :
    verify later body settings = verify cat body settings ∧
      ∀ r, verify cat body settings = .error r → r.message later = r.message cat := by
  have hT : ∀ s t, cat.SameKnown s t → s = t := fun _ _ => And.left
  have hcorresponds := Catalog.corresponds_of_grows hcat
    (h.mono fun _ _ => Catalog.Op.Conserves.keepsInterfaces)
  have hrelated : body.Related cat.SameKnown body :=
    Body.related_self fun t ht => Catalog.sameKnown_self (hbody t ht)
  have houtcome := verify_congr hcorresponds (hmethods.sameInvoke h) hrelated settings
  have heq : verify cat body settings = verify later body settings := by
    refine houtcome.eq_of_eq (fun _ _ => Rejection.Related.eq_of_eq hT) fun typing typing' hst => ?_
    have hentries : typing.entries.toList = typing'.entries.toList :=
      List.forall₂_eq_eq_eq ▸ hst.imp fun _ _ => Stack.Related.eq_of_eq hT
    cases typing
    cases typing'
    exact congrArg _ (Array.toList_inj.1 hentries)
  refine ⟨heq.symm, fun r hr => ?_⟩
  rw [← heq, hr] at houtcome
  cases houtcome with
  | error hrel => exact (hrel.message_eq hcorresponds).symm

/-- A method that returns the first of some strings. -/
def firstString : Body where
  name := "firstString"
  signature := ⟨.object, [.declared (.array .string)], .declared .string, true, .direct⟩
  locals := []
  code := [.ldvar (.arg 0), .ldc .i4, .ldelem .string, .ret]
  regions := []

/-- An entry for arrays of strings does not change the verdict about it. -/
example : verify (Catalog.core.newArray EntryId.string).2 firstString {}
    = verify .core firstString {} := by
  have hgrows : Catalog.core.Grows (fun c op => op.Conserves Catalog.core.entries.size c)
      (Catalog.core.newArray EntryId.string).2 :=
    Relation.ReflTransGen.single (.apply (.newArray EntryId.string) (by decide) trivial)
  exact (verify_conservative .core (fun _ _ _ hm => by cases hm) hgrows (by decide +kernel) {}).1

end StackTyping
