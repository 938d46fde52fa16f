import StackTyping.Proofs.Fault
import StackTyping.Proofs.Outcome
import StackTyping.Rule.Step

/-!
Comparing two runs of a rule.

Most of what is shown of rules is shown by comparing two runs, on stacks whose slots are related
place by place: the same rule on two stacks, or the rules of instructions that differ in the choice
of types. Both runs succeed, with related results and stacks, or both fail, with related faults. A
lenient comparison asks for nothing where the first run fails.

The instructions are gone through once, here. A comparison has to answer for the questions that
rules ask of operands, and for the few rules that look at the elements of arrays and pointers.
-/

namespace StackTyping

/-! ### Delegates -/

namespace Catalog

/-- The delegates that related types may be have the same `Invoke` method, and the types it names
are related to themselves. -/
def SameInvoke (T : Ty → Ty → Prop) (cat cat' : Catalog) : Prop :=
  ∀ i, T (.entry i) (.entry i) → cat.findMethod? i .invoke = cat'.findMethod? i .invoke ∧
    ∀ n m, cat.findMethod? i .invoke = some (n, m) → ∀ t ∈ m.types, T t t

namespace Corresponds

variable {T : Ty → Ty → Prop} {cat cat' : Catalog} (h : Corresponds T cat cat')
include h

lemma isDelegate {s t : Ty} (hst : T s t) : cat.isDelegate s = cat'.isDelegate t := by
  have hdelegate : T .delegate .delegate := h.core _ (by decide)
  have hmulticast : T .multicastDelegate .multicastDelegate := h.core _ (by decide)
  rw [Catalog.isDelegate, Catalog.isDelegate, h.equiv _ _ _ _ hst hdelegate,
    h.equiv _ _ _ _ hst hmulticast, h.subtype _ _ _ _ hst hdelegate]

lemma sameSignature {m n : Method} (hm : ∀ t ∈ m.types, T t t) (hn : ∀ t ∈ n.types, T t t) :
    cat.sameSignature m n = cat'.sameSignature m n := by
  simp only [Method.types, List.forall_mem_cons] at hm hn
  obtain ⟨-, hret, hparams⟩ := hm
  obtain ⟨-, hret', hparams'⟩ := hn
  have hall : ((m.params.zip n.params).all fun p => cat.equiv p.1 p.2) =
      (m.params.zip n.params).all fun p => cat'.equiv p.1 p.2 := by
    rw [Bool.eq_iff_iff, List.all_eq_true, List.all_eq_true]
    refine forall₂_congr fun p hp => ?_
    obtain ⟨hleft, hright⟩ := List.of_mem_zip hp
    rw [h.equiv _ _ _ _ (hparams _ hleft) (hparams' _ hright)]
  rw [Catalog.sameSignature, Catalog.sameSignature, h.equiv _ _ _ _ hret hret', hall]

end Corresponds

end Catalog

/-! ### Runs -/

/-- What two runs of a rule have in common. -/
structure Comparison where
  /-- Types that catalogs and bodies name. -/
  type : Ty → Ty → Prop
  /-- Slots on the stack. -/
  operand : Slot → Slot → Prop
  /-- Types of the locations that pointers lead to. -/
  location : Ty → Ty → Prop
  /-- Types of the elements of arrays. -/
  element : Ty → Ty → Prop
  /-- Nothing is asked of the second run where the first one fails. -/
  lenient : Prop

namespace Comparison

variable {α α' β β' : Type} (c : Comparison)

/-- Slots that a fault may be about: those that are asked for, and those that are found. -/
def slot (a b : Slot) : Prop := a.Related c.type b ∨ c.operand a b

inductive Outcome (Q : α → β → Prop) :
    EStateM.Result Fault Stack α → EStateM.Result Fault Stack β → Prop where
  | ok {a : α} {b : β} {out out' : Stack} (hab : Q a b) (hout : List.Forall₂ c.operand out out') :
      Outcome Q (.ok a out) (.ok b out')
  | error {f g : Fault} {left left' : Stack} (hfg : f.Local c.type c.slot g)
      (hleft : List.Forall₂ c.operand left left') : Outcome Q (.error f left) (.error g left')
  | lenient {f : Fault} {left : Stack} {result : EStateM.Result Fault Stack β} (h : c.lenient) :
      Outcome Q (.error f left) result

/-- On related stacks the two rules come to related ends. -/
def Relates (Q : α → β → Prop) (r : Rule α) (r' : Rule β) : Prop :=
  ∀ ⦃s t : Stack⦄, List.Forall₂ c.operand s t → c.Outcome Q (r s) (r' t)

/-- Where the first question is answered by yes, so is the second, and otherwise too unless the
comparison is lenient. -/
def Permits (ok ok' : Bool) : Prop := ok = ok' ∨ c.lenient ∧ (ok → ok')

variable {c} {Q : α → β → Prop} {R : α' → β' → Prop} {r : Rule α} {r' : Rule β}

lemma Permits.and {x x' y y' : Bool} (hx : x = x') (hy : c.Permits y y') :
    c.Permits (x && y) (x' && y') := by
  subst hx
  rcases hy with rfl | ⟨hlenient, himp⟩
  · exact Or.inl rfl
  · refine Or.inr ⟨hlenient, fun hxy => ?_⟩
    obtain ⟨hx, hy⟩ := Bool.and_eq_true_iff.1 hxy
    exact Bool.and_eq_true_iff.2 ⟨hx, himp hy⟩

namespace Relates

lemma pure {a : α} {b : β} (hab : Q a b) : c.Relates Q (Pure.pure a) (Pure.pure b) :=
  fun _ _ hst => .ok hab hst

lemma throw {f g : Fault} (h : f.Local c.type c.slot g) :
    c.Relates Q (MonadExcept.throw f) (MonadExcept.throw g) :=
  fun _ _ hst => .error h hst

lemma throw_left {f : Fault} (h : c.lenient) : c.Relates Q (MonadExcept.throw f) r' :=
  fun _ _ _ => .lenient h

lemma bind {f : α → Rule α'} {f' : β → Rule β'} (hr : c.Relates Q r r')
    (hf : ∀ a b, Q a b → c.Relates R (f a) (f' b)) : c.Relates R (r >>= f) (r' >>= f') := by
  intro s t hst
  have hrun := hr hst
  simp only [Bind.bind, EStateM.bind]
  generalize r s = x at hrun ⊢
  generalize r' t = y at hrun ⊢
  cases hrun with
  | ok hab hmid => exact hf _ _ hab hmid
  | error hfg hleft => exact .error hfg hleft
  | lenient h => exact .lenient h

lemma seq {r r' : Rule α} {f : α → Rule α'} {f' : α → Rule β'} (hr : c.Relates Eq r r')
    (hf : ∀ a, c.Relates R (f a) (f' a)) : c.Relates R (r >>= f) (r' >>= f') :=
  hr.bind fun a _ hab => hab ▸ hf a

lemma discard (hr : c.Relates Q r r') :
    c.Relates Eq (Functor.discard r) (Functor.discard r') := by
  intro s t hst
  have hrun := hr hst
  dsimp only [Functor.discard, Functor.mapConst, Function.comp, EStateM.map]
  generalize r s = x at hrun ⊢
  generalize r' t = y at hrun ⊢
  cases hrun with
  | ok hab hout => exact .ok rfl hout
  | error hfg hleft => exact .error hfg hleft
  | lenient h => exact .lenient h

lemma exists_ok {s t out : Stack} {a : α} (hr : c.Relates Q r r')
    (hst : List.Forall₂ c.operand s t) (ha : r s = .ok a out) :
    ∃ b out', r' t = .ok b out' ∧ Q a b ∧ List.Forall₂ c.operand out out' := by
  have hrun := hr hst
  rw [ha] at hrun
  generalize r' t = y at hrun ⊢
  cases hrun with
  | ok hab hout => exact ⟨_, _, rfl, hab, hout⟩

end Relates

lemma relates_of_ok (hlenient : c.lenient) (h : ∀ s t, List.Forall₂ c.operand s t →
    ∀ a out, r s = .ok a out →
      ∃ b out', r' t = .ok b out' ∧ Q a b ∧ List.Forall₂ c.operand out out') :
    c.Relates Q r r' := by
  intro s t hst
  cases hrun : r s with
  | error f left => exact .lenient hlenient
  | ok a out =>
    obtain ⟨b, out', hb, hab, hout⟩ := h s t hst a out hrun
    rw [hb]
    exact .ok hab hout

open Rule

lemma relates_require_of_imp {ok ok' : Bool} {f g : Fault} (hlenient : c.lenient)
    (himp : ok → ok') : c.Relates Eq (require ok f) (require ok' g) := by
  cases ok with
  | true =>
    rw [himp rfl]
    exact .pure rfl
  | false => exact .throw_left hlenient

lemma relates_require {ok ok' : Bool} {f g : Fault} (hok : c.Permits ok ok')
    (hfg : f.Local c.type c.slot g) : c.Relates Eq (require ok f) (require ok' g) := by
  rcases hok with rfl | ⟨hlenient, himp⟩
  · cases ok with
    | true => exact .pure rfl
    | false => exact .throw hfg
  · exact relates_require_of_imp hlenient himp

lemma relates_push {a b : Slot} (hab : c.operand a b) : c.Relates Eq (push a) (push b) :=
  fun _ _ hst => .ok rfl (.cons hab hst)

lemma relates_pop : c.Relates c.operand pop pop := by
  intro s t hst
  cases hst with
  | nil => exact .error .emptyStack .nil
  | cons hab hrest => exact .ok hab hrest

lemma relates_clear : c.Relates Eq clear clear := fun _ _ _ => .ok rfl .nil

lemma relates_requireEmpty : c.Relates Eq requireEmpty requireEmpty := by
  intro s t hst
  cases hst with
  | nil => exact .ok rfl .nil
  | cons hab hrest =>
    refine .error ?_ (.cons hab hrest)
    rw [List.length_cons, List.length_cons, hrest.length_eq]
    exact .leftover _

/-- A rule that only pops a value and looks at it. -/
lemma relates_pop_require {ok ok' : Slot → Bool} {e e' : Expectation}
    (hok : ∀ a b, c.operand a b → c.Permits (ok a) (ok' b)) (he : e.Related c.slot e') :
    c.Relates Eq (pop >>= fun a => require (ok a) (.unexpected e a))
      (pop >>= fun a => require (ok' a) (.unexpected e' a)) :=
  relates_pop.bind fun a b hab => relates_require (hok a b hab) (.unexpected he (Or.inr hab))

/-! ### Scopes -/

/-- The rules respect a comparison of two scopes: the types and bodies are related, slots of related
types may be pushed, and questions about related operands are answered alike. -/
structure Respects (c : Comparison) (scope scope' : Scope) : Prop where
  types : Catalog.Corresponds c.type scope.cat scope'.cat
  invoke : Catalog.SameInvoke c.type scope.cat scope'.cat
  body : scope.body.Related c.type scope'.body
  settings : scope.settings = scope'.settings
  null : c.operand .null .null
  declared : ∀ s t, c.type s t → c.operand (.declared s) (.declared t)
  boxedOf : ∀ s t, c.type s t → c.operand (.boxedOf scope.cat s) (.boxedOf scope'.cat t)
  var : ∀ v a b, scope.var? v = some a → a.Related c.type b → c.operand a b
  isNull : ∀ a b, c.operand a b → a.isNull = b.isNull
  isInline : ∀ a b, c.operand a b → a.isInline scope.cat = b.isInline scope'.cat
  isPointer : ∀ a b, c.operand a b → a.isPointer scope.cat = b.isPointer scope'.cat
  isReference : ∀ a b, c.operand a b → a.isReference scope.cat = b.isReference scope'.cat
  category? : ∀ a b, c.operand a b → a.category? scope.cat = b.category? scope'.cat
  accepts : ∀ a a' b b' : Slot, a.Related c.type a' → c.operand b b' →
    c.Permits (a.accepts scope.cat b) (a'.accepts scope'.cat b')
  stores : ∀ a a' b b' : Slot, a.Related c.type a' → c.operand b b' →
    c.Permits (a.stores scope.cat b) (a'.stores scope'.cat b')
  popOwner : ∀ f direct, (∀ t ∈ f.types, c.type t t) →
    c.Relates Eq (popOwner scope f direct) (popOwner scope' f direct)
  popArray : c.Relates (Option.Rel c.element) (popArray scope) (popArray scope')
  popPointer : c.Relates c.location (popPointer scope) (popPointer scope')
  element : ∀ x y, c.location x y → c.element x y
  sameLocation : ∀ x x' y y', c.location x x' → c.type y y' →
    c.Relates Eq (sameLocation scope x y) (sameLocation scope' x' y')
  loaded : ∀ x x' y y', c.element x x' → c.type y y' →
    c.Relates c.operand (loaded scope x y) (loaded scope' x' y')
  storable : ∀ x x' y y', c.element x x' → c.type y y' →
    c.Relates Eq (storable scope x y) (storable scope' x' y')

namespace Respects

variable {scope scope' : Scope} (h : c.Respects scope scope')
include h

lemma relates_push_declared {s t : Ty} (hst : c.type s t) :
    c.Relates Eq (push (.declared s)) (push (.declared t)) :=
  relates_push (h.declared s t hst)

lemma relates_push_boxedOf {s t : Ty} (hst : c.type s t) :
    c.Relates Eq (push (.boxedOf scope.cat s)) (push (.boxedOf scope'.cat t)) :=
  relates_push (h.boxedOf s t hst)

lemma relates_push_primitive (p : Primitive) :
    c.Relates Eq (push (.ofPrimitive p)) (push (.ofPrimitive p)) :=
  h.relates_push_declared (h.types.ofPrimitive p)

/-! ### Variables and operands -/

lemma var?_rel (v : Var) : Option.Rel (fun a b => a.Related c.type b ∧ c.operand a b)
    (scope.var? v) (scope'.var? v) := by
  have hrel : Option.Rel (Slot.Related c.type) (scope.var? v) (scope'.var? v) := by
    cases v with
    | arg i => exact getElem?_rel (h.types.arguments h.body.signature) i
    | loc i =>
      exact rel_map (getElem?_rel h.body.locals i) fun _ _ => Slot.related_declared
  have hvar := h.var v
  generalize scope.var? v = a? at hrel hvar ⊢
  generalize scope'.var? v = b? at hrel ⊢
  cases hrel with
  | none => exact .none
  | some hab => exact .some ⟨hab, hvar _ _ rfl hab⟩

lemma relates_readVar (v : Var) : c.Relates (fun a b => a.Related c.type b ∧ c.operand a b)
    (readVar scope v) (readVar scope' v) := by
  have hrel := h.var?_rel v
  unfold readVar
  generalize scope.var? v = a? at hrel ⊢
  generalize scope'.var? v = b? at hrel ⊢
  cases hrel with
  | none => exact .throw (.badIndex _)
  | some hab => exact .pure hab

lemma relates_addressOf {a b : Slot} (hab : a.Related c.type b) :
    c.Relates c.operand (addressOf a) (addressOf b) := by
  have hfault : Fault.Local c.type c.slot (.unexpected .location a) (.unexpected .location b) :=
    .unexpected .location (Or.inl hab)
  obtain ⟨a?, x⟩ := a
  obtain ⟨b?, y⟩ := b
  obtain ⟨rfl, hty⟩ := hab
  cases hty with
  | none => exact .throw hfault
  | some hst =>
    cases x with
    | true => exact .throw hfault
    | false => exact .pure (h.declared _ _ (h.types.pointer_of _ _ hst))

lemma relates_popAccepted {a b : Slot} (hab : a.Related c.type b) :
    c.Relates Eq (popAccepted scope a) (popAccepted scope' b) :=
  relates_pop_require (h.accepts a b · · hab) (.slot (Or.inl hab))

lemma relates_popStored {a b : Slot} (hab : a.Related c.type b) :
    c.Relates Eq (popStored scope a) (popStored scope' b) :=
  relates_pop_require (h.stores a b · · hab) (.slot (Or.inl hab))

lemma relates_popArguments {l m : List Slot} (hlm : List.Forall₂ (Slot.Related c.type) l m) :
    c.Relates Eq (popArguments scope l) (popArguments scope' m) := by
  induction hlm with
  | nil => exact .pure rfl
  | cons hab _ ih => exact ih.seq fun _ => h.relates_popAccepted hab

lemma relates_popCategory (categories : List Category) :
    c.Relates Eq (popCategory scope categories) (popCategory scope' categories) :=
  relates_pop_require (fun a b hab => Or.inl (by rw [h.category? a b hab])) (.categories _)

lemma relates_popReference : c.Relates Eq (popReference scope) (popReference scope') :=
  relates_pop_require (fun a b hab => Or.inl (h.isReference a b hab)) .reference

lemma relates_popCondition : c.Relates Eq (popCondition scope) (popCondition scope') := by
  refine relates_pop_require (fun a b hab => Or.inl ?_) .integerOrReference
  rw [h.category? a b hab, h.isReference a b hab]

/-! ### Numbers -/

lemma relates_combined (pairing : Pairing) (allowFloat : Bool) {left left' right right' : Slot}
    (hl : c.operand left left') (hr : c.operand right right') :
    c.Relates Eq (combined scope pairing allowFloat left right)
      (combined scope' pairing allowFloat left' right') := by
  have hfault : Fault.Local c.type c.slot (.operands pairing left right)
    (.operands pairing left' right') := .operands (Or.inr hl) (Or.inr hr)
  unfold combined
  rw [h.category? _ _ hl, h.category? _ _ hr]
  cases left'.category? scope'.cat with
  | none => exact .throw hfault
  | some k =>
    cases right'.category? scope'.cat with
    | none => exact .throw hfault
    | some l =>
      dsimp only
      cases Category.combine allowFloat k l with
      | none => exact .throw hfault
      | some m => exact .pure rfl

lemma relates_comparable (pairing : Pairing) {left left' right right' : Slot}
    (hl : c.operand left left') (hr : c.operand right right') :
    c.Relates Eq (comparable scope pairing left right)
      (comparable scope' pairing left' right') := by
  unfold comparable
  rw [h.isReference _ _ hl, h.isReference _ _ hr, h.isPointer _ _ hl, h.isPointer _ _ hr]
  split
  · exact .pure rfl
  · exact (h.relates_combined pairing true hl hr).discard

lemma relates_shift (op : ShiftOp) : c.Relates Eq (shift scope op) (shift scope' op) := by
  refine relates_pop.bind fun amount amount' ha => relates_pop.bind fun value value' hv => ?_
  have hfault : Fault.Local c.type c.slot (.operands (.shift op) value amount)
    (.operands (.shift op) value' amount') := .operands (Or.inr hv) (Or.inr ha)
  rw [h.category? _ _ hv, h.category? _ _ ha]
  cases value'.category? scope'.cat with
  | none => exact .throw hfault
  | some k =>
    exact (relates_require (Or.inl rfl) hfault).seq fun _ => h.relates_push_primitive _

lemma relates_unary (op : UnaryOp) : c.Relates Eq (unary scope op) (unary scope' op) := by
  refine relates_pop.bind fun value value' hv => ?_
  have hfault : Fault.Local c.type c.slot (.unexpected .number value)
    (.unexpected .number value') := .unexpected .number (Or.inr hv)
  rw [h.category? _ _ hv]
  cases value'.category? scope'.cat with
  | none => exact .throw hfault
  | some k =>
    exact (relates_require (Or.inl rfl) hfault).seq fun _ => h.relates_push_primitive _

/-! ### Members -/

lemma relates_box {s t : Ty} (hst : c.type s t) :
    c.Relates Eq (box scope s) (box scope' t) := by
  have hslot : (Slot.declared s).Related c.type (.declared t) := Slot.related_declared hst
  refine (relates_require (Or.inl (h.types.isBoxable hst)) (.unexpected .value (Or.inl hslot))).seq
    fun _ => relates_pop.bind fun a b hab => ?_
  exact (relates_require (.and (h.isInline a b hab) (h.accepts _ _ a b hslot hab))
    (.unexpected (.slot (Or.inl hslot)) (Or.inr hab))).seq fun _ => h.relates_push_boxedOf hst

variable {m : Method} (hm : ∀ t ∈ m.types, c.type t t)
include hm

lemma relates_invoke (dispatch : Dispatch) :
    c.Relates Eq (Rule.invoke scope m dispatch) (Rule.invoke scope' m dispatch) := by
  have hsig := m.related_signature hm dispatch
  refine (h.relates_popArguments (h.types.arguments hsig)).seq fun _ => ?_
  rw [h.types.hasResult hsig]
  split
  · exact h.relates_push_declared (hm _ (by simp [Method.types]))
  · exact .pure rfl

lemma relates_requireReceiver {a b : Slot} (hab : c.operand a b) :
    c.Relates Eq (requireReceiver scope m a) (requireReceiver scope' m b) := by
  have howner : c.type (.entry m.declaring) (.entry m.declaring) := hm _ List.mem_cons_self
  unfold requireReceiver
  split
  · exact relates_require (Or.inl (h.isNull a b hab)) (.delegate (.staticReceiver hm (Or.inr hab)))
  · exact relates_require (h.accepts _ _ a b (h.types.boxedOf howner) hab)
      (.delegate (.receiver hm (Or.inr hab)))

omit hm in
/-- Both constructors follow the same function, with the same jumps around it. -/
lemma relates_popDelegate (i : Nat) {d : EntryId} (hd : c.type (.entry d) (.entry d)) :
    c.Relates Eq (popDelegate scope i d) (popDelegate scope' i d) := by
  obtain ⟨hfind, htypes⟩ := h.invoke d hd
  have hfunction : ∀ m, scope.body.functionBefore? i = some m → ∀ t ∈ m.types, c.type t t :=
    fun m => h.body.types_of_functionBefore?
  refine (h.relates_popCategory _).seq fun _ => relates_pop.bind fun receiver receiver' hr => ?_
  rw [← h.body.functionBefore?_eq, ← h.body.landings_eq]
  cases hbefore : scope.body.functionBefore? i with
  | none => exact .throw (.delegate .noFunction)
  | some m =>
    have hm := hfunction m hbefore
    refine (relates_require (Or.inl rfl) (.delegate .jumpedInto)).seq fun _ => ?_
    rw [← hfind]
    cases hinvoke : scope.cat.findMethod? d .invoke with
    | none => exact .throw (.delegate (.noInvoke hd))
    | some found =>
      have hfound := htypes found.1 found.2 hinvoke
      exact (relates_require (Or.inl (h.types.sameSignature hfound hm))
        (.delegate (.signature hm hfound))).seq fun _ => h.relates_requireReceiver hm hr

lemma relates_construct (i : Nat) : c.Relates Eq (construct scope i m) (construct scope' i m) := by
  have howner : c.type (.entry m.declaring) (.entry m.declaring) := hm _ List.mem_cons_self
  refine (relates_require (Or.inl rfl) (.member (p := .notConstructor m) hm)).seq fun _ => ?_
  rw [h.types.isDelegate howner]
  split
  · exact (h.relates_popDelegate i howner).seq fun _ => h.relates_push_declared howner
  · exact (h.relates_popArguments (m.related_signature hm .direct).params).seq
      fun _ => h.relates_push_declared howner

omit hm in
lemma relates_requireTail (i : Nat) (flags : Flags) :
    c.Relates Eq (requireTail scope i flags) (requireTail scope' i flags) := by
  have hnext := getElem?_rel h.body.code (i + 1)
  unfold requireTail
  dsimp only
  rw [h.settings]
  generalize scope.body.code[i + 1]? = next at hnext ⊢
  generalize scope'.body.code[i + 1]? = next' at hnext ⊢
  cases hnext with
  | none => exact relates_require (Or.inl rfl) .tailCall
  | some hinstr => cases hinstr <;> exact relates_require (Or.inl rfl) .tailCall

/-! ### Instructions -/

omit hm in
/-- The rules of instructions that name no type themselves. -/
lemma relates_step_plain (i : Nat) {instr : Instr} (hinstr : instr.operand? = none)
    (htypes : ∀ t ∈ instr.types, c.type t t) :
    c.Relates Eq (step scope i instr) (step scope' i instr) := by
  have hfield : ∀ f : Field, (∀ t ∈ f.types, c.type t t) → c.type f.type f.type :=
    fun f hf => hf _ (List.mem_cons_of_mem _ List.mem_cons_self)
  cases instr with
  -- nothing is popped
  | nop | br _ | rethrow => exact .pure rfl
  | ldvar v => exact (h.relates_readVar v).bind fun _ _ hab => relates_push hab.2
  | ldvara v =>
    exact (h.relates_readVar v).bind fun _ _ hab =>
      (h.relates_addressOf hab.1).bind fun _ _ hab => relates_push hab
  | ldnull => exact relates_push h.null
  | ldc k => cases k <;> exact h.relates_push_declared (h.types.core _ (by decide))
  | ldftn _ => exact h.relates_push_primitive _
  | leave _ | endfinally => exact relates_clear
  -- one value is popped and looked at
  | stvar v => exact (h.relates_readVar v).bind fun _ _ hab => h.relates_popAccepted hab.1
  | pop => exact relates_pop.discard
  | dup =>
    exact relates_pop.bind fun _ _ hab => (relates_push hab).seq fun _ => relates_push hab
  | brtrue _ | brfalse _ => exact h.relates_popCondition
  | switch _ => exact h.relates_popCategory _
  | throw =>
    have hobject := Slot.related_declared h.types.object
    exact relates_pop_require (h.accepts _ _ · · hobject) .reference
  | endfilter => exact (h.relates_popCategory _).seq fun _ => relates_requireEmpty
  | ret =>
    simp only [step]
    rw [h.types.hasResult h.body.signature]
    split
    · exact (h.relates_popAccepted h.body.signature.ret).seq fun _ => relates_requireEmpty
    · exact relates_requireEmpty
  -- numbers
  | brcmp _ _ _ =>
    exact relates_pop.bind fun _ _ hr => relates_pop.bind fun _ _ hl => h.relates_comparable _ hl hr
  | binary op flags =>
    exact relates_pop.bind fun _ _ hr => relates_pop.bind fun _ _ hl =>
      (h.relates_combined _ _ hl hr).seq fun _ => h.relates_push_primitive _
  | shift op => exact h.relates_shift op
  | unary op => exact h.relates_unary op
  | compare op _ =>
    exact relates_pop.bind fun _ _ hr => relates_pop.bind fun _ _ hl =>
      (h.relates_comparable _ hl hr).seq fun _ => h.relates_push_primitive _
  | conv _ _ =>
    refine relates_pop.bind fun a b hab => (relates_require (Or.inl ?_)
      (.unexpected .number (Or.inr hab))).seq fun _ => h.relates_push_primitive _
    rw [h.category? a b hab]
  | ckfinite => exact (h.relates_popCategory _).seq fun _ => h.relates_push_primitive _
  -- calls
  | call m flags =>
    exact (h.relates_invoke htypes .direct).seq fun _ => h.relates_requireTail i flags
  | callvirt m flags =>
    exact (relates_require (Or.inl rfl) (.member (p := .callvirtStatic m) htypes)).seq fun _ =>
      (h.relates_invoke htypes .virtual).seq fun _ => h.relates_requireTail i flags
  | newobj m => exact h.relates_construct htypes i
  | ldvirtftn m =>
    have howner : c.type (.entry m.declaring) (.entry m.declaring) := htypes _ List.mem_cons_self
    exact (relates_require (Or.inl rfl) (.member (p := .ldvirtftnStatic m) htypes)).seq fun _ =>
      (h.relates_popAccepted (h.types.boxedOf howner)).seq fun _ => h.relates_push_primitive _
  -- fields
  | ldfld f =>
    exact (relates_require (Or.inl rfl) (.member (p := .staticField f) htypes)).seq fun _ =>
      (h.popOwner f true htypes).seq fun _ => h.relates_push_declared (hfield f htypes)
  | ldflda f =>
    exact (relates_require (Or.inl rfl) (.member (p := .staticField f) htypes)).seq fun _ =>
      (h.popOwner f false htypes).seq fun _ =>
        h.relates_push_declared (h.types.pointer_of _ _ (hfield f htypes))
  | stfld f =>
    exact (relates_require (Or.inl rfl) (.member (p := .staticField f) htypes)).seq fun _ =>
      (h.relates_popStored (Slot.related_declared (hfield f htypes))).seq fun _ =>
        h.popOwner f false htypes
  | ldsfld f =>
    exact (relates_require (Or.inl rfl) (.member (p := .instanceField f) htypes)).seq fun _ =>
      h.relates_push_declared (hfield f htypes)
  | ldsflda f =>
    exact (relates_require (Or.inl rfl) (.member (p := .instanceField f) htypes)).seq fun _ =>
      h.relates_push_declared (h.types.pointer_of _ _ (hfield f htypes))
  | stsfld f =>
    exact (relates_require (Or.inl rfl) (.member (p := .instanceField f) htypes)).seq fun _ =>
      h.relates_popStored (Slot.related_declared (hfield f htypes))
  | ldlen => exact h.popArray.discard.seq fun _ => h.relates_push_primitive _
  | _ => cases hinstr

omit hm in
/-- **Related instructions have related rules.** Only `ldelema` hands out the address of an element,
so only there elements have to be related as locations are. -/
theorem relates_step (i : Nat) {instr instr' : Instr} (hinstr : instr.Related c.type instr')
    (helement : ∀ t, instr = .ldelema t → ∀ x y, c.element x y → c.location x y) :
    c.Relates Eq (step scope i instr) (step scope' i instr') := by
  cases hinstr with
  | plain hplain htypes => exact h.relates_step_plain i hplain htypes
  -- arrays
  | newarr hst =>
    exact (h.relates_popCategory _).seq fun _ =>
      h.relates_push_declared (h.types.array_of _ _ hst)
  | ldelem hst =>
    refine (h.relates_popCategory _).seq fun _ => h.popArray.bind fun _ _ hxy => ?_
    cases hxy with
    | none => exact h.relates_push_declared hst
    | some hxy => exact (h.loaded _ _ _ _ hxy hst).bind fun _ _ hab => relates_push hab
  | @ldelema s _ hst =>
    have hpush := h.relates_push_declared (h.types.pointer_of _ _ hst)
    refine (h.relates_popCategory _).seq fun _ => h.popArray.bind fun _ _ hxy => ?_
    cases hxy with
    | none => exact hpush
    | some hxy => exact (h.sameLocation _ _ _ _ (helement s rfl _ _ hxy) hst).seq fun _ => hpush
  | stelem hst =>
    refine (h.relates_popStored (Slot.related_declared hst)).seq fun _ =>
      (h.relates_popCategory _).seq fun _ => h.popArray.bind fun _ _ hxy => ?_
    cases hxy with
    | none => exact .pure rfl
    | some hxy => exact h.storable _ _ _ _ hxy hst
  -- pointers
  | ldind hst =>
    exact h.popPointer.bind fun _ _ hxy =>
      (h.loaded _ _ _ _ (h.element _ _ hxy) hst).bind fun _ _ hab => relates_push hab
  | stind hst =>
    exact (h.relates_popStored (Slot.related_declared hst)).seq fun _ =>
      h.popPointer.bind fun _ _ hxy => h.storable _ _ _ _ (h.element _ _ hxy) hst
  | ldobj hst =>
    exact h.popPointer.bind fun _ _ hxy =>
      (h.sameLocation _ _ _ _ hxy hst).seq fun _ => h.relates_push_declared hst
  | stobj hst =>
    exact (h.relates_popStored (Slot.related_declared hst)).seq fun _ =>
      h.popPointer.bind fun _ _ hxy => h.sameLocation _ _ _ _ hxy hst
  | initobj hst => exact h.popPointer.bind fun _ _ hxy => h.sameLocation _ _ _ _ hxy hst
  -- types by themselves
  | sizeof _ => exact h.relates_push_primitive _
  | castclass hst | isinst hst =>
    exact h.relates_popReference.seq fun _ => h.relates_push_boxedOf hst
  | box hst => exact h.relates_box hst
  | unbox hst =>
    exact (relates_require (Or.inl (h.types.isBoxable hst))
      (.unexpected .value (Or.inl (Slot.related_declared hst)))).seq fun _ =>
        h.relates_popReference.seq fun _ =>
          h.relates_push_declared (h.types.pointer_of _ _ hst)
  | unboxAny hst => exact h.relates_popReference.seq fun _ => h.relates_push_declared hst

end Respects

end Comparison

end StackTyping
