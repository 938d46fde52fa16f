import StackTyping.Proofs.Code.Related

/-!
Faults that differ in the choice of related types only.

A fault names slots, members and regions. Two faults are related if they are about the same thing
and what they name is related. Faults of rules are about operands, variables and members; all others
come from the pass around the rules. Related faults are of one kind and, where related types have
the same text, of one wording.
-/

namespace StackTyping

/-! ### Faults of rules -/

/-- The same expectation, up to related slots. -/
inductive Expectation.Related (S : Slot → Slot → Prop) : Expectation → Expectation → Prop where
  | slot {a b : Slot} (h : S a b) : Related S (.slot a) (.slot b)
  | categories (cs : List Category) : Related S (.categories cs) (.categories cs)
  | location : Related S .location .location
  | integerOrReference : Related S .integerOrReference .integerOrReference
  | reference : Related S .reference .reference
  | number : Related S .number .number
  | value : Related S .value .value
  | array : Related S .array .array
  | pointer : Related S .pointer .pointer

inductive DelegateProblem.Related (T : Ty → Ty → Prop) (S : Slot → Slot → Prop) :
    DelegateProblem → DelegateProblem → Prop where
  | noFunction : Related T S .noFunction .noFunction
  | jumpedInto : Related T S .jumpedInto .jumpedInto
  | noInvoke {d : EntryId} (h : T (.entry d) (.entry d)) : Related T S (.noInvoke d) (.noInvoke d)
  | signature {m n : Method} (hm : ∀ t ∈ m.types, T t t) (hn : ∀ t ∈ n.types, T t t) :
      Related T S (.signature m n) (.signature m n)
  | staticReceiver {m : Method} {a b : Slot} (hm : ∀ t ∈ m.types, T t t) (hab : S a b) :
      Related T S (.staticReceiver m a) (.staticReceiver m b)
  | receiver {m : Method} {a b : Slot} (hm : ∀ t ∈ m.types, T t t) (hab : S a b) :
      Related T S (.receiver m a) (.receiver m b)

def MemberProblem.types : MemberProblem → List Ty
  | callvirtStatic m | ldvirtftnStatic m | notConstructor m => m.types
  | staticField f | instanceField f => f.types

/-- Faults about operands, variables and members. -/
inductive Fault.Local (T : Ty → Ty → Prop) (S : Slot → Slot → Prop) : Fault → Fault → Prop where
  | emptyStack : Local T S .emptyStack .emptyStack
  | unexpected {e e' : Expectation} {a b : Slot} (he : e.Related S e') (hab : S a b) :
      Local T S (.unexpected e a) (.unexpected e' b)
  | operands {p : Pairing} {a a' b b' : Slot} (ha : S a a') (hb : S b b') :
      Local T S (.operands p a b) (.operands p a' b')
  | leftover (n : Nat) : Local T S (.leftover n) (.leftover n)
  | badIndex (i : Nat) : Local T S (.badIndex i) (.badIndex i)
  | tailCall : Local T S .tailCall .tailCall
  | delegate {p q : DelegateProblem} (h : p.Related T S q) : Local T S (.delegate p) (.delegate q)
  | member {p : MemberProblem} (h : ∀ t ∈ p.types, T t t) : Local T S (.member p) (.member p)

lemma Fault.Local.mono {T : Ty → Ty → Prop} {S S' : Slot → Slot → Prop} {f g : Fault}
    (hS : ∀ a b, S a b → S' a b) (h : f.Local T S g) : f.Local T S' g := by
  cases h with
  | emptyStack => exact .emptyStack
  | unexpected he hab =>
    refine .unexpected ?_ (hS _ _ hab)
    cases he with
    | slot h => exact .slot (hS _ _ h)
    | _ => constructor
  | operands ha hb => exact .operands (hS _ _ ha) (hS _ _ hb)
  | leftover n => exact .leftover n
  | badIndex i => exact .badIndex i
  | tailCall => exact .tailCall
  | delegate h =>
    refine .delegate ?_
    cases h with
    | noFunction => exact .noFunction
    | jumpedInto => exact .jumpedInto
    | noInvoke h => exact .noInvoke h
    | signature hm hn => exact .signature hm hn
    | staticReceiver hm hab => exact .staticReceiver hm (hS _ _ hab)
    | receiver hm hab => exact .receiver hm (hS _ _ hab)
  | member h => exact .member h

/-! ### All faults -/

variable {T : Ty → Ty → Prop} {cat cat' : Catalog}

/-- The same problem, up to the choice of the class that a region catches. -/
inductive RegionProblem.Related (T : Ty → Ty → Prop) : RegionProblem → RegionProblem → Prop where
  | emptyInterval {r r' : Region} (h : r.Related T r') :
      Related T (.emptyInterval r) (.emptyInterval r')
  | outOfBounds {r r' : Region} (h : r.Related T r') : Related T (.outOfBounds r) (.outOfBounds r')
  | filterAfterHandler {r r' : Region} (h : r.Related T r') :
      Related T (.filterAfterHandler r) (.filterAfterHandler r')
  | strayFilter {r r' : Region} (h : r.Related T r') : Related T (.strayFilter r) (.strayFilter r')
  | overlapsTry (b t : Block) : Related T (.overlapsTry b t) (.overlapsTry b t)
  | reused (b : Block) : Related T (.reused b) (.reused b)
  | crossing (b c : Block) : Related T (.crossing b c) (.crossing b c)

namespace Fault

/-- Faults of the pass that name no types. -/
def isPlain : Fault → Bool
  | heights _ _ | blockExit _ _ | branchTarget _ | leaveTarget _ | misplaced _ | blockEntry _
  | overflow _ | fallsOff | emptyBody | outOfRange _ => true
  | _ => false

inductive Related (T : Ty → Ty → Prop) : Fault → Fault → Prop where
  | rule {f g : Fault} (h : f.Local T (Slot.Related T) g) : Related T f g
  | plain {f : Fault} (h : f.isPlain) : Related T f f
  | noCommonType {a a' b b' : Slot} (ha : a.Related T a') (hb : b.Related T b') :
      Related T (.noCommonType a b) (.noCommonType a' b')
  | backwardBranch {source target : Nat} {s s' t t' : Stack}
      (hs : s.Related T s') (ht : t.Related T t') :
      Related T (.backwardBranch source target s t) (.backwardBranch source target s' t')
  | regions {p q : RegionProblem} (h : p.Related T q) : Related T (.regions p) (.regions q)

namespace Related

variable {f g : Fault}

lemma ctorIdx_eq (h : f.Related T g) : f.ctorIdx = g.ctorIdx := by
  cases h with
  | rule h => cases h <;> rfl
  | _ => rfl

lemma eq_of_eq (hT : ∀ s t, T s t → s = t) (h : f.Related T g) : f = g := by
  have hslot : ∀ a b, Slot.Related T a b → a = b := fun _ _ => Slot.Related.eq_of_eq hT
  have hregion : ∀ r r' : Region, r.Related T r' → r = r' := by
    rintro ⟨k, a, b, c, d, e⟩ _ ⟨hk⟩
    cases hk with
    | plain _ => rfl
    | typedCatch hst => rw [hT _ _ hst]
  cases h with
  -- only slots and regions are named up to related types; members are the same on both sides
  | rule h =>
    cases h with
    | unexpected he hab =>
      cases he with
      | slot h => rw [hslot _ _ h, hslot _ _ hab]
      | _ => rw [hslot _ _ hab]
    | operands ha hb => rw [hslot _ _ ha, hslot _ _ hb]
    | delegate h =>
      cases h with
      | staticReceiver _ hab => rw [hslot _ _ hab]
      | receiver _ hab => rw [hslot _ _ hab]
      | _ => rfl
    | _ => rfl
  | plain _ => rfl
  | noCommonType ha hb => rw [hslot _ _ ha, hslot _ _ hb]
  | backwardBranch hs ht => rw [Stack.Related.eq_of_eq hT hs, Stack.Related.eq_of_eq hT ht]
  | regions h =>
    cases h with
    | emptyInterval h => rw [hregion _ _ h]
    | outOfBounds h => rw [hregion _ _ h]
    | filterAfterHandler h => rw [hregion _ _ h]
    | strayFilter h => rw [hregion _ _ h]
    | _ => rfl

end Related

end Fault

/-! ### Wording -/

namespace Catalog.Corresponds

variable (h : Corresponds T cat cat')
include h

lemma expectationText {e e' : Expectation} (he : e.Related (Slot.Related T) e') :
    e.text cat = e'.text cat' := by
  cases he with
  | slot hab => exact h.slot_text hab
  | _ => rfl

lemma delegateText {p q : DelegateProblem} (hpq : p.Related T (Slot.Related T) q) :
    p.text cat = q.text cat' := by
  unfold DelegateProblem.text
  cases hpq with
  | noFunction => rfl
  | jumpedInto => rfl
  | noInvoke hd => simp only [h.nameOf _ _ hd]
  | signature hm hn => simp only [h.methodText hm, h.methodText hn]
  | staticReceiver hm hab => simp only [h.methodText hm, h.slot_text hab]
  | receiver hm hab => simp only [h.methodText hm, h.slot_text hab]

lemma memberText {p : MemberProblem} (hp : ∀ t ∈ p.types, T t t) : p.text cat = p.text cat' := by
  cases p with
  | callvirtStatic m | ldvirtftnStatic m | notConstructor m =>
    exact congrArg (_ ++ ·) (h.methodText hp)
  | staticField f | instanceField f => exact congrArg (_ ++ ·) (h.fieldText hp)

lemma problemText {p q : RegionProblem} (hpq : p.Related T q) : p.text cat = q.text cat' := by
  cases hpq with
  | emptyInterval hr => exact congrArg (_ ++ ·) (h.regionText hr)
  | outOfBounds hr => exact congrArg (_ ++ ·) (h.regionText hr)
  | filterAfterHandler hr => exact congrArg (_ ++ ·) (h.regionText hr)
  | strayFilter hr => exact congrArg (_ ++ ·) (h.regionText hr)
  | _ => rfl

/-- **Related faults have one wording.** -/
theorem message {f g : Fault} (hfg : f.Related T g) : f.message cat = g.message cat' := by
  unfold Fault.message
  cases hfg with
  | rule hfg =>
    cases hfg with
    | unexpected he hab => simp only [h.expectationText he, h.slot_text hab]
    | operands ha hb => simp only [h.slot_text ha, h.slot_text hb]
    | delegate hp => simp only [h.delegateText hp]
    | member hp => simp only [h.memberText hp]
    | _ => rfl
  | plain hplain =>
    cases f with
    | unexpected | noCommonType | operands | regions | delegate | member => cases hplain
    | _ => rfl
  | noCommonType ha hb => simp only [h.slot_text ha, h.slot_text hb]
  | backwardBranch => rfl
  | regions hp => simp only [h.problemText hp]

end Catalog.Corresponds

end StackTyping
