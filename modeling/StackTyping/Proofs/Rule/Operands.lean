import StackTyping.Proofs.Outcome
import StackTyping.Rule.Step

/-!
How many operands a rule takes.

All instructions but those that look at the stack as a whole take a fixed number of slots off it
and put a fixed number in their place, whatever the slots hold. What lies below the operands is
left alone and plays no part, whether the rule succeeds or fails. So the height of the stack
behind an instruction is known from the height before it.
-/

namespace StackTyping

namespace Instr

/-- The rule looks at the stack as a whole: it clears it or asks that nothing else is on it. -/
def seesWholeStack : Instr → Bool
  | leave _ | endfinally | ret | endfilter => true
  | _ => false

/-- The number of slots that the instruction takes off the stack. -/
def takes (cat : Catalog) : Instr → Nat
  | call m _ | callvirt m _ => m.params.length + if m.isStatic then 0 else 1
  | newobj m => if cat.isDelegate (.entry m.declaring) then 2 else m.params.length
  | stelem _ => 3
  | brcmp _ _ _ | binary _ _ | shift _ | compare _ _ | stfld _ | ldelem _ | ldelema _ | stind _
  | stobj _ => 2
  | stvar _ | dup | pop | ldvirtftn _ | brtrue _ | brfalse _ | switch _ | throw | unary _
  | conv _ _ | ckfinite | ldfld _ | ldflda _ | stsfld _ | newarr _ | ldlen | ldind _ | ldobj _
  | initobj _ | castclass _ | isinst _ | box _ | unbox _ | unboxAny _ => 1
  | _ => 0

/-- The number of slots that the instruction puts in their place. -/
def leaves (cat : Catalog) : Instr → Nat
  | call m _ | callvirt m _ => if cat.isVoid m.ret then 0 else 1
  | dup => 2
  | ldvar _ | ldvara _ | ldnull | ldc _ | newobj _ | ldftn _ | ldvirtftn _ | binary _ _ | shift _
  | unary _ | compare _ _ | conv _ _ | ckfinite | ldfld _ | ldflda _ | ldsfld _ | ldsflda _
  | newarr _ | ldlen | ldelem _ | ldelema _ | ldind _ | ldobj _ | sizeof _ | castclass _
  | isinst _ | box _ | unbox _ | unboxAny _ => 1
  | _ => 0

end Instr

namespace Rule

variable {α β : Type} {p q p' q' : Nat} {r : Rule α}

/-- The rule replaces the top `p` slots of the stack by `q` others, or fails. It fails on a stack
of fewer slots. On any other, what it does is decided by the top `p` slots, and the rest stays. -/
structure Replaces (p q : Nat) (r : Rule α) : Prop where
  short : ∀ stack : Stack, stack.length < p → ∀ a out, r stack ≠ .ok a out
  frame : ∀ top : Stack, top.length = p →
    (∃ a out, out.length = q ∧ ∀ rest, r (top ++ rest) = .ok a (out ++ rest)) ∨
      ∃ fault left, ∀ rest, r (top ++ rest) = .error fault (left ++ rest)

namespace Replaces

lemma pure (a : α) : Replaces 0 0 (Pure.pure a : Rule α) := by
  refine ⟨fun stack h => absurd h (Nat.not_lt_zero _), fun top h => Or.inl ⟨a, [], rfl, ?_⟩⟩
  rw [List.length_eq_zero_iff.1 h]
  exact fun rest => rfl

/-- A rule that always fails replaces any number of slots by any other. -/
lemma throw (fault : Fault) : Replaces p q (MonadExcept.throw fault : Rule α) :=
  ⟨fun _ _ _ _ => throw_ne_ok, fun top _ => Or.inr ⟨fault, top, fun _ => rfl⟩⟩

/-- One rule after the other. The second takes what the first has left, and more if that is not
enough. -/
lemma bind {f : α → Rule β} (hr : Replaces p q r) (hf : ∀ a, Replaces p' q' (f a)) :
    Replaces (p + (p' - q)) (q' + (q - p')) (r >>= f) := by
  constructor
  · intro stack hlen b out h
    obtain ⟨a, mid, hfirst, hsecond⟩ := bind_eq_ok_iff.1 h
    rcases Nat.lt_or_ge stack.length p with hlt | hge
    · exact hr.short stack hlt a mid hfirst
    · have htop : (stack.take p).length = p := List.length_take_of_le hge
      rw [← List.take_append_drop p stack] at hfirst
      rcases hr.frame _ htop with ⟨a', out', hout', hok⟩ | ⟨fault, left, herr⟩
      · rw [hok] at hfirst
        cases hfirst
        refine (hf a).short _ ?_ b out hsecond
        rw [List.length_append, List.length_drop]
        omega
      · rw [herr] at hfirst
        cases hfirst
  · intro top hlen
    have htop : (top.take p).length = p := List.length_take_of_le (by omega)
    rw [← List.take_append_drop p top]
    simp only [Bind.bind, EStateM.bind, List.append_assoc]
    rcases hr.frame _ htop with ⟨a, out, hout, hok⟩ | ⟨fault, left, herr⟩
    · -- the second rule starts on what the first leaves and on the operands not yet used
      have hmid : p' ≤ (out ++ top.drop p).length := by
        rw [List.length_append, List.length_drop]
        omega
      have htop' := List.length_take_of_le hmid
      have hsplit : ∀ rest, out ++ (top.drop p ++ rest)
          = (out ++ top.drop p).take p' ++ ((out ++ top.drop p).drop p' ++ rest) := by
        intro rest
        rw [← List.append_assoc, ← List.append_assoc, List.take_append_drop]
      simp only [hok, hsplit]
      rcases (hf a).frame _ htop' with ⟨b, out', hout', hok'⟩ | ⟨fault, left, herr'⟩
      · refine Or.inl ⟨b, out' ++ (out ++ top.drop p).drop p', ?_, fun rest => ?_⟩
        · rw [List.length_append, List.length_drop, List.length_append, List.length_drop]
          omega
        · rw [hok', List.append_assoc]
      · refine Or.inr ⟨fault, left ++ (out ++ top.drop p).drop p', fun rest => ?_⟩
        rw [herr', List.append_assoc]
    · refine Or.inr ⟨fault, left ++ top.drop p, fun rest => ?_⟩
      rw [herr, List.append_assoc]

/-- After a rule that leaves the stack as it is. -/
lemma after {f : α → Rule β} (hr : Replaces 0 0 r) (hf : ∀ a, Replaces p q (f a)) :
    Replaces p q (r >>= f) := by
  simpa using hr.bind hf

/-- After a rule that only takes slots off the stack. -/
lemma andThen {f : α → Rule β} (hr : Replaces p 0 r) (hf : ∀ a, Replaces p' q (f a)) :
    Replaces (p + p') q (r >>= f) := by
  simpa using hr.bind hf

lemma last {f : α → Rule β} (hr : Replaces p 0 r) (hf : ∀ a, Replaces 0 q (f a)) :
    Replaces p q (r >>= f) := hr.andThen hf

lemma before {f : α → Rule β} (hr : Replaces p q r) (hf : ∀ a, Replaces 0 0 (f a)) :
    Replaces p q (r >>= f) := by
  simpa using hr.bind hf

lemma discard (hr : Replaces p q r) : Replaces p q (Functor.discard r) := by
  have hbind : Functor.discard r = r >>= fun _ => Pure.pure PUnit.unit := by
    funext stack
    simp only [Functor.discard, Functor.mapConst, Function.comp, EStateM.map, Bind.bind,
      EStateM.bind]
    cases r stack <;> rfl
  rw [hbind]
  exact hr.before fun _ => pure PUnit.unit

end Replaces

lemma replaces_require (ok : Bool) (fault : Fault) : Replaces 0 0 (require ok fault) := by
  unfold require
  split
  · exact .pure ()
  · exact .throw fault

lemma replaces_push (s : Slot) : Replaces 0 1 (push s) := by
  refine ⟨fun stack h => absurd h (Nat.not_lt_zero _), fun top h => Or.inl ⟨(), [s], rfl, ?_⟩⟩
  rw [List.length_eq_zero_iff.1 h]
  exact fun rest => rfl

lemma replaces_pop : Replaces 1 0 pop := by
  constructor
  · intro stack h a out hpop
    rw [pop_eq_ok_iff.1 hpop] at h
    simp at h
  · intro top h
    obtain ⟨s, rfl⟩ := List.length_eq_one_iff.1 h
    exact Or.inl ⟨s, [], rfl, fun rest => rfl⟩

lemma replaces_pop_require (ok : Slot → Bool) (fault : Slot → Fault) :
    Replaces 1 0 (pop >>= fun s => require (ok s) (fault s)) :=
  replaces_pop.last fun s => replaces_require (ok s) (fault s)

variable (scope : Scope)

lemma replaces_readVar (v : Var) : Replaces 0 0 (readVar scope v) := by
  unfold readVar
  split
  · exact .pure _
  · exact .throw _

lemma replaces_addressOf (s : Slot) : Replaces 0 0 (addressOf s) := by
  unfold addressOf
  split
  · exact .pure _
  · exact .throw _

lemma replaces_popArguments (expected : List Slot) :
    Replaces expected.length 0 (popArguments scope expected) := by
  induction expected with
  | nil => exact .pure ()
  | cons s rest ih => exact ih.andThen fun _ => replaces_pop_require _ _

lemma replaces_popArray : Replaces 1 0 (popArray scope) :=
  replaces_pop.last fun _ => (replaces_require _ _).after fun _ => .pure _

lemma replaces_popPointer : Replaces 1 0 (popPointer scope) := by
  refine replaces_pop.last fun s => ?_
  split
  · exact .pure _
  · exact .throw _

lemma replaces_loaded (actual expected : Ty) : Replaces 0 0 (loaded scope actual expected) := by
  unfold loaded
  dsimp only
  split
  · split
    · exact .pure _
    · exact .throw _
  · split
    · exact .pure _
    · exact .throw _

lemma replaces_storable (actual expected : Ty) :
    Replaces 0 0 (storable scope actual expected) := by
  unfold storable
  dsimp only
  split
  · exact replaces_require _ _
  · exact replaces_require _ _

lemma replaces_combined (pairing : Pairing) (allowFloat : Bool) (left right : Slot) :
    Replaces 0 0 (combined scope pairing allowFloat left right) := by
  unfold combined
  split
  · split
    · exact .pure _
    · exact .throw _
  · exact .throw _

lemma replaces_comparable (pairing : Pairing) (left right : Slot) :
    Replaces 0 0 (comparable scope pairing left right) := by
  unfold comparable
  split
  · exact .pure _
  · exact (replaces_combined scope pairing true left right).discard

/-- The arguments of a method are its parameters and, unless it is static, its receiver. -/
lemma length_arguments (cat : Catalog) (m : Method) (dispatch : Dispatch) :
    ((m.signature dispatch).arguments cat).length
      = m.params.length + if m.isStatic then 0 else 1 := by
  have hreceiver : ((m.signature dispatch).receiver? cat).toList.length
      = if m.isStatic then 0 else 1 := by
    unfold Signature.receiver?
    split
    · rename_i hstatic
      exact (if_pos hstatic).symm
    · rename_i hinstance
      refine Eq.trans ?_ (if_neg hinstance).symm
      split
      · split <;> rfl
      · rfl
  rw [Signature.arguments, List.length_append, hreceiver, Nat.add_comm]
  exact congrArg (· + _) (List.length_map _)

lemma replaces_invoke (m : Method) (dispatch : Dispatch) :
    Replaces (m.params.length + if m.isStatic then 0 else 1)
      (if scope.cat.isVoid m.ret then 0 else 1) (invoke scope m dispatch) := by
  rw [← length_arguments scope.cat m dispatch]
  refine (replaces_popArguments scope _).last fun _ => ?_
  have hresult : (m.signature dispatch).hasResult scope.cat = !scope.cat.isVoid m.ret := rfl
  rw [hresult]
  cases scope.cat.isVoid m.ret with
  | true => exact .pure ()
  | false => exact replaces_push _

lemma replaces_popDelegate (i : Nat) (delegate : EntryId) :
    Replaces 2 0 (popDelegate scope i delegate) := by
  refine (replaces_pop_require _ _).andThen fun _ => replaces_pop.last fun receiver => ?_
  split
  · exact .throw _
  · refine (replaces_require _ _).after fun _ => ?_
    split
    · exact .throw _
    · refine (replaces_require _ _).after fun _ => ?_
      unfold requireReceiver
      split
      · exact replaces_require _ _
      · exact replaces_require _ _

lemma replaces_construct (i : Nat) (m : Method) :
    Replaces (if scope.cat.isDelegate (.entry m.declaring) then 2 else m.params.length) 1
      (construct scope i m) := by
  refine (replaces_require _ _).after fun _ => ?_
  dsimp only
  split
  · exact (replaces_popDelegate scope i _).last fun _ => replaces_push _
  · have hparams := replaces_popArguments scope (m.params.map .declared)
    rw [List.length_map] at hparams
    exact hparams.last fun _ => replaces_push _

/-- **Each instruction takes and leaves a number of slots that is fixed by the instruction and the
catalog.** On fewer slots it fails. On more, its outcome and the slots it leaves are decided by
those it takes, and the rest of the stack stays, also where it fails. -/
theorem step_replaces {instr : Instr} (h : instr.seesWholeStack = false) (i : Nat) :
    Replaces (instr.takes scope.cat) (instr.leaves scope.cat) (step scope i instr) := by
  cases instr with
  | ret | leave _ | endfinally | endfilter => cases h
  -- nothing is popped, or one value and no type is named
  | nop | br _ | rethrow => exact .pure _
  | ldvar v => exact (replaces_readVar scope v).after fun s => replaces_push s
  | ldvara v =>
    exact (replaces_readVar scope v).after fun s =>
      (replaces_addressOf s).after fun t => replaces_push t
  | stvar v => exact (replaces_readVar scope v).after fun s => replaces_pop_require _ _
  | ldnull | ldc _ | ldftn _ | sizeof _ => exact replaces_push _
  | dup =>
    exact replaces_pop.andThen fun s => (replaces_push s).bind fun _ => replaces_push s
  | pop => exact replaces_pop.discard
  -- members: the number of slots is that of the parameters
  | call m flags => exact (replaces_invoke scope m .direct).before fun _ => replaces_require _ _
  | callvirt m flags =>
    exact (replaces_require _ _).after fun _ =>
      (replaces_invoke scope m .virtual).before fun _ => replaces_require _ _
  | newobj m => exact replaces_construct scope i m
  | ldvirtftn m =>
    exact (replaces_require _ _).after fun _ =>
      (replaces_pop_require _ _).last fun _ => replaces_push _
  -- conditions and numbers
  | brtrue _ | brfalse _ | switch _ | throw => exact replaces_pop_require _ _
  | brcmp _ _ _ =>
    exact replaces_pop.andThen fun _ => replaces_pop.last fun _ =>
      replaces_comparable scope _ _ _
  | binary op flags =>
    exact replaces_pop.andThen fun _ => replaces_pop.last fun _ =>
      (replaces_combined scope _ _ _ _).after fun _ => replaces_push _
  | shift op =>
    refine replaces_pop.andThen fun amount => replaces_pop.last fun value => ?_
    split
    · exact (replaces_require _ _).after fun _ => replaces_push _
    · exact .throw _
  | unary op =>
    refine replaces_pop.last fun value => ?_
    split
    · exact (replaces_require _ _).after fun _ => replaces_push _
    · exact .throw _
  | compare op _ =>
    exact replaces_pop.andThen fun _ => replaces_pop.last fun _ =>
      (replaces_comparable scope _ _ _).after fun _ => replaces_push _
  | conv _ _ =>
    exact replaces_pop.last fun _ => (replaces_require _ _).after fun _ => replaces_push _
  | ckfinite | newarr _ => exact (replaces_pop_require _ _).last fun _ => replaces_push _
  -- fields
  | ldfld f | ldflda f =>
    exact (replaces_require _ _).after fun _ =>
      (replaces_pop_require _ _).last fun _ => replaces_push _
  | stfld f =>
    exact (replaces_require _ _).after fun _ =>
      (replaces_pop_require _ _).andThen fun _ => replaces_pop_require _ _
  | ldsfld f | ldsflda f => exact (replaces_require _ _).after fun _ => replaces_push _
  | stsfld f => exact (replaces_require _ _).after fun _ => replaces_pop_require _ _
  -- arrays: whether the array is `null` decides what is checked, not how much is popped
  | ldlen => exact (replaces_popArray scope).discard.last fun _ => replaces_push _
  | ldelem t =>
    refine (replaces_pop_require _ _).andThen fun _ =>
      (replaces_popArray scope).last fun element? => ?_
    cases element? with
    | none => exact replaces_push _
    | some actual => exact (replaces_loaded scope actual t).after fun s => replaces_push s
  | ldelema t =>
    refine (replaces_pop_require _ _).andThen fun _ =>
      (replaces_popArray scope).last fun element? => ?_
    cases element? with
    | none => exact replaces_push _
    | some actual => exact (replaces_require _ _).after fun _ => replaces_push _
  | stelem t =>
    refine (replaces_pop_require _ _).andThen fun _ => (replaces_pop_require _ _).andThen fun _ =>
      (replaces_popArray scope).last fun element? => ?_
    cases element? with
    | none => exact .pure _
    | some actual => exact replaces_storable scope actual t
  -- pointers
  | ldind t =>
    exact (replaces_popPointer scope).last fun actual =>
      (replaces_loaded scope actual t).after fun s => replaces_push s
  | stind t =>
    exact (replaces_pop_require _ _).andThen fun _ =>
      (replaces_popPointer scope).last fun actual => replaces_storable scope actual t
  | ldobj t =>
    exact (replaces_popPointer scope).last fun actual =>
      (replaces_require _ _).after fun _ => replaces_push _
  | stobj t =>
    exact (replaces_pop_require _ _).andThen fun _ =>
      (replaces_popPointer scope).last fun actual => replaces_require _ _
  | initobj t => exact (replaces_popPointer scope).last fun actual => replaces_require _ _
  -- casts and boxing
  | castclass _ | isinst _ | unboxAny _ =>
    exact (replaces_pop_require _ _).last fun _ => replaces_push _
  | box t =>
    exact (replaces_require _ _).after fun _ => replaces_pop.last fun _ =>
      (replaces_require _ _).after fun _ => replaces_push _
  | unbox t =>
    exact (replaces_require _ _).after fun _ =>
      (replaces_pop_require _ _).last fun _ => replaces_push _

def equalsMethod : Method :=
  ⟨EntryId.object, ⟨"Equals", rfl⟩, [.object], .ofPrimitive .boolean, false, true⟩

/-- A method that compares its argument with `null`. -/
def isNullMethod : Scope where
  cat := .core
  body :=
    { name := "isNull"
      signature := ⟨.object, [.declared .object], .ofPrimitive .boolean, true, .direct⟩
      locals := []
      code := [.ldvar (.arg 0), .ldnull, .callvirt equalsMethod ⟨false, false, false⟩, .ret]
      regions := [] }
  settings := {}

/-- The call takes a receiver and an argument. It fails on one slot. On two, with anything below
them, it leaves its result in their place. -/
theorem step_replaces_isNull :
    (Instr.callvirt equalsMethod ⟨false, false, false⟩).seesWholeStack = false ∧
      (∀ out, step isNullMethod 2 (.callvirt equalsMethod ⟨false, false, false⟩) [.null]
        ≠ .ok () out) ∧
      ∀ rest, step isNullMethod 2 (.callvirt equalsMethod ⟨false, false, false⟩)
        ([.null, .declared .object] ++ rest) = .ok () ([.ofPrimitive .boolean] ++ rest) := by
  have hcall : (Instr.callvirt equalsMethod ⟨false, false, false⟩).seesWholeStack = false := rfl
  have hreplaces := step_replaces isNullMethod hcall 2
  refine ⟨hcall, fun out => hreplaces.short [.null] (by decide) () out, ?_⟩
  have hargument : popArguments isNullMethod [.declared .object] [.null, .declared .object]
      = .ok () [.declared .object] :=
    bind_eq_ok_iff.2 ⟨(), _, rfl, bind_eq_ok_iff.2 ⟨.null, _, rfl,
      require_eq_ok_iff.2 ⟨by decide +kernel, rfl⟩⟩⟩
  have hreceiver : popAccepted isNullMethod (.declared .object) [.declared .object] = .ok () [] :=
    bind_eq_ok_iff.2 ⟨.declared .object, _, rfl, require_eq_ok_iff.2 ⟨by decide +kernel, rfl⟩⟩
  have hinvoke : invoke isNullMethod equalsMethod .virtual [.null, .declared .object]
      = .ok () [.ofPrimitive .boolean] :=
    bind_eq_ok_iff.2 ⟨(), [], bind_eq_ok_iff.2 ⟨(), _, hargument, hreceiver⟩, rfl⟩
  have hstep : step isNullMethod 2 (.callvirt equalsMethod ⟨false, false, false⟩)
      [.null, .declared .object] = .ok () [.ofPrimitive .boolean] :=
    bind_eq_ok_iff.2 ⟨(), _, rfl, bind_eq_ok_iff.2 ⟨(), _, hinvoke, rfl⟩⟩
  rcases hreplaces.frame [.null, .declared .object] rfl with ⟨_, out, -, hok⟩ | ⟨_, _, herr⟩
  · have hout := (hok []).symm.trans hstep
    rw [List.append_nil] at hout
    cases hout
    exact hok
  · cases (herr []).symm.trans hstep

end Rule

end StackTyping
