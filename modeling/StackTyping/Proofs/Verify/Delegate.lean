import StackTyping.Proofs.Code.Related
import StackTyping.Proofs.Rule.Store
import StackTyping.Proofs.Verify.Confinement

/-!
Delegates are made from functions that were loaded for them.

The rule for a delegate's constructor reads the function off the instructions in front of it. That
is sound only if control comes from there on every path, and with the stack that they leave. Both
hold because the rule looks for other ways to get to these instructions among all branches, leaves,
handlers and filters, and because a stack that arrives alone is not merged with anything.
-/

namespace StackTyping

variable {cat : Catalog} {body : Body} {settings : Settings} {typing : Typing}

lemma Catalog.sameSignature_iff {m n : Method} : cat.sameSignature m n ↔
    cat.equiv m.ret n.ret ∧ List.Forall₂ (fun s t => cat.equiv s t) m.params n.params := by
  rw [sameSignature, Bool.and_eq_true, Bool.and_eq_true, List.forall₂_iff_zip, and_assoc]
  simp

/-! ### What the rule asks for -/

namespace Rule

variable {scope : Scope} {i : Nat} {m : Method} {receiver : Slot} {stack out : Stack}

/-- The receiver is `null` for a static function, and an object of the declaring type for any
other. -/
structure Receives (cat : Catalog) (m : Method) (receiver : Slot) : Prop where
  static : m.isStatic → receiver.isNull
  object : m.isStatic = false → (Slot.boxedOf cat (.entry m.declaring)).accepts cat receiver

lemma requireReceiver_eq_ok (h : requireReceiver scope m receiver stack = .ok () out) :
    Receives scope.cat m receiver ∧ stack = out := by
  unfold requireReceiver at h
  cases hstatic : m.isStatic with
  | true =>
    rw [hstatic] at h
    obtain ⟨hnull, hout⟩ := require_eq_ok_iff.1 h
    exact ⟨⟨fun _ => hnull, fun hobject => by simp [hstatic] at hobject⟩, hout⟩
  | false =>
    rw [hstatic] at h
    obtain ⟨hobject, hout⟩ := require_eq_ok_iff.1 h
    exact ⟨⟨fun hnull => by simp [hstatic] at hnull, fun _ => hobject⟩, hout⟩

/-- A delegate can be made at a position: the function in front of it fits the delegate and the
receiver on the stack, and control does not land between the two. -/
structure Binds (scope : Scope) (i : Nat) (delegate : EntryId) (m : Method) (receiver : Slot) :
    Prop where
  function : scope.body.functionBefore? i = some m
  not_landing : i ∉ scope.body.landings
  not_landing_before : i - 1 ∉ scope.body.landings
  signature : ∃ n invoke, scope.cat.findMethod? delegate .invoke = some (n, invoke) ∧
    scope.cat.sameSignature invoke m
  receives : Receives scope.cat m receiver

lemma binds_of_popDelegate {delegate : EntryId}
    (h : popDelegate scope i delegate stack = .ok () out) :
    ∃ pointer m receiver, stack = pointer :: receiver :: out ∧
      Binds scope i delegate m receiver := by
  obtain ⟨_, below, hpop, hrest⟩ := bind_eq_ok_iff.1 h
  obtain ⟨pointer, rfl, -⟩ := pop_require_eq_ok_iff.1 hpop
  obtain ⟨receiver, left, hreceiver, hchecks⟩ := bind_eq_ok_iff.1 hrest
  obtain rfl := pop_eq_ok_iff.1 hreceiver
  cases hfunction : scope.body.functionBefore? i with
  | none =>
    rw [hfunction] at hchecks
    exact absurd hchecks throw_ne_ok
  | some m =>
    rw [hfunction] at hchecks
    obtain ⟨_, _, hclear, hsigned⟩ := bind_eq_ok_iff.1 hchecks
    obtain ⟨hland, rfl⟩ := require_eq_ok_iff.1 hclear
    simp only [Bool.not_eq_true', Bool.or_eq_false_iff, List.contains_eq_mem,
      decide_eq_false_iff_not] at hland
    cases hinvoke : scope.cat.findMethod? delegate .invoke with
    | none =>
      rw [hinvoke] at hsigned
      exact absurd hsigned throw_ne_ok
    | some found =>
      rw [hinvoke] at hsigned
      obtain ⟨_, _, hmatch, hbound⟩ := bind_eq_ok_iff.1 hsigned
      obtain ⟨hsig, rfl⟩ := require_eq_ok_iff.1 hmatch
      obtain ⟨hreceives, rfl⟩ := requireReceiver_eq_ok hbound
      exact ⟨pointer, m, receiver, rfl, hfunction, hland.1, hland.2,
        ⟨found.1, found.2, hinvoke, hsig⟩, hreceives⟩

lemma binds_of_step {ctor : Method} (hdelegate : scope.cat.isDelegate (.entry ctor.declaring))
    (h : step scope i (.newobj ctor) stack = .ok () out) :
    ∃ pointer m receiver rest, stack = pointer :: receiver :: rest ∧
      Binds scope i ctor.declaring m receiver := by
  obtain ⟨_, mid, hctor, h⟩ := bind_eq_ok_iff.1 h
  obtain ⟨-, rfl⟩ := require_eq_ok_iff.1 hctor
  dsimp only at h
  rw [if_pos hdelegate] at h
  obtain ⟨_, mid, hpop, -⟩ := bind_eq_ok_iff.1 h
  obtain ⟨pointer, m, receiver, rfl, hbinds⟩ := binds_of_popDelegate hpop
  exact ⟨pointer, m, receiver, mid, rfl, hbinds⟩

/-- Loading a function puts one slot on the stack and takes at most one off it. -/
lemma ne_nil_of_load {pointer : Slot} {rest : Stack} {instr : Instr}
    (hload : instr = .ldftn m ∨ instr = .ldvirtftn m)
    (h : step scope i instr stack = .ok () (pointer :: receiver :: rest)) : stack ≠ [] := by
  rintro rfl
  rcases hload with rfl | rfl
  · cases h
  · obtain ⟨_, mid, hstatic, h⟩ := bind_eq_ok_iff.1 h
    obtain ⟨-, rfl⟩ := require_eq_ok_iff.1 hstatic
    obtain ⟨_, mid, hpop, -⟩ := bind_eq_ok_iff.1 h
    obtain ⟨value, hnil, -⟩ := popAccepted_eq_ok_iff.1 hpop
    cases hnil

end Rule

/-! ### Positions where control does not land -/

namespace Body

variable {i k : Nat}

lemma not_mem_landings : i ∉ body.landings ↔
    (∀ instr ∈ body.code, i ∉ instr.targets) ∧ ∀ r ∈ body.regions, i ∉ r.entryPoints := by
  simp only [landings, List.mem_append, List.mem_flatMap, not_or, not_exists, not_and]

/-- Control gets to position `k + 1` by running on from position `k`, and in no other way. -/
structure OnlyRunsOn (body : Body) (k : Nat) : Prop where
  edge : ∀ j, body.Edge j (k + 1) ↔ j = k
  not_target : ∀ instr ∈ body.code, k + 1 ∉ instr.targets
  not_entered : ∀ r ∈ body.regions, k + 1 ∉ r.entryPoints

lemma onlyRunsOn_of_not_landing {instr : Instr} (hinstr : body.code[k]? = some instr)
    (hfalls : instr.fallsThrough) (hland : k + 1 ∉ body.landings) : body.OnlyRunsOn k := by
  obtain ⟨htarget, hentered⟩ := not_mem_landings.1 hland
  refine ⟨fun j => ⟨?_, ?_⟩, htarget, hentered⟩
  · rintro ⟨instr', hinstr', hj⟩
    rcases List.mem_append.1 hj with hj | hj
    · exact absurd hj (htarget instr' (List.mem_of_getElem? hinstr'))
    · split at hj
      · have := List.mem_singleton.1 hj
        omega
      · cases hj
  · rintro rfl
    exact ⟨instr, hinstr, by simp [Instr.successors, hfalls]⟩

end Body

namespace Scope

variable {scope : Scope} {layout : Layout} {table : Array Stack} {i k : Nat} {instr : Instr}
  {entry out : Stack}

lemma sends_eq_nil (hpass : scope.Passes layout table k) (hland : i ∉ scope.body.landings)
    (hnext : i ≠ k + 1) : scope.sends table k i = [] := by
  obtain ⟨instr, entry, out, hpass⟩ := hpass
  rw [hpass.sends_eq]
  refine Stack.sentTo_eq_nil fun hi => ?_
  rcases List.mem_append.1 hi with hi | hi
  · exact (Body.not_mem_landings.1 hland).1 _ (List.mem_of_getElem? hpass.code_eq) hi
  · split at hi
    · exact hnext (List.mem_singleton.1 hi)
    · cases hi

/-- **Where control does not land, the stack comes from the instruction before.** If it is not
empty, that instruction exists, runs on and has left it. -/
lemma Tabulates.step_of_not_landing (htable : scope.Tabulates layout table)
    (hregions : Layout.ofRegions scope.body.regions scope.body.code.length = .ok layout)
    (hi : i < scope.body.code.length) (hland : i ∉ scope.body.landings)
    (hentry : table[i]? = some entry) (hne : entry ≠ []) :
    ∃ k instr before, i = k + 1 ∧ scope.body.code[k]? = some instr ∧ instr.fallsThrough ∧
      table[k]? = some before ∧ Rule.step scope k instr before = .ok () entry := by
  obtain ⟨htarget, hentered⟩ := Body.not_mem_landings.1 hland
  have hexc : layout.exceptionAt? scope.cat i = none := by
    rw [Layout.exceptionAt?_eq_find? hregions, Option.map_eq_none_iff, List.find?_eq_none]
    exact fun r hr => by simpa using hentered r hr
  have hmerged : Stack.mergeAll scope.cat (scope.arrivals table i i) = .ok entry := by
    obtain ⟨_, _, _, hpass⟩ := htable.passes i hi
    obtain rfl := Option.some.inj (hentry.symm.trans hpass.table_eq)
    exact (startOf_of_none hexc).symm.trans hpass.start_eq
  cases i with
  | zero =>
    cases hmerged
    exact absurd rfl hne
  | succ k =>
    have hk : k < scope.body.code.length := Nat.lt_of_succ_lt hi
    -- control does not land here, so only the instruction before can send anything
    have hearlier : scope.arrivals table k (k + 1) = [] := by
      refine List.flatMap_eq_nil_iff.2 fun j hj => ?_
      rw [List.mem_range] at hj
      exact sends_eq_nil (htable.passes j (Nat.lt_trans hj hk)) hland (by omega)
    obtain ⟨instr, before, out, hpass⟩ := htable.passes k hk
    have hmem := List.mem_of_getElem? hpass.code_eq
    rw [arrivals_succ, hearlier, List.nil_append, hpass.sends_eq] at hmerged
    by_cases hfalls : instr.fallsThrough
    · refine ⟨k, instr, before, rfl, hpass.code_eq, hfalls, hpass.table_eq, ?_⟩
      have hleave : ∀ t, instr ≠ .leave t := by
        rintro t rfl
        cases hfalls
      have hsent : (instr.carried out).sentTo (instr.successors k) (k + 1) = [out] := by
        rw [Instr.carried_of_ne_leave hleave, Instr.successors, if_pos hfalls, Stack.sentTo_append,
          Stack.sentTo_eq_nil (htarget instr hmem)]
        simp [Stack.sentTo]
      rw [hsent] at hmerged
      cases hmerged
      exact hpass.step_eq
    · have hsent : (instr.carried out).sentTo (instr.successors k) (k + 1) = [] := by
        refine Stack.sentTo_eq_nil fun hnext => ?_
        rw [Instr.successors, if_neg hfalls, List.append_nil] at hnext
        exact htarget instr hmem hnext
      rw [hsent] at hmerged
      cases hmerged
      exact absurd rfl hne

end Scope

/-- **A delegate is made from the function that was loaded for it, on every path.** In front of its
constructor stands the load of a function. Control gets to the constructor from the load alone, and
to the load from the instruction before it alone, and the constructor starts with the stack that
the load has left. The function has the parameters and the result of the delegate, and the receiver
is one that it can be bound to. -/
theorem delegate_untampered (h : verify cat body settings = .ok typing) {ctor : Method} {i : Nat}
    (hnew : body.code[i]? = some (.newobj ctor))
    (hdelegate : cat.isDelegate (.entry ctor.declaring)) :
    ∃ k m, i = k + 2 ∧
      (body.code[k + 1]? = some (.ldftn m) ∨
        body.code[k + 1]? = some (.ldvirtftn m) ∧ body.code[k]? = some .dup) ∧
      body.OnlyRunsOn k ∧ body.OnlyRunsOn (k + 1) ∧
      ∃ before pointer receiver rest, typing.entry? (k + 1) = some before ∧
        Rule.stepAt ⟨cat, body, settings⟩ (k + 1) before = .ok () (pointer :: receiver :: rest) ∧
        typing.entry? i = some (pointer :: receiver :: rest) ∧
        (∃ n invoke, cat.findMethod? ctor.declaring .invoke = some (n, invoke) ∧
          cat.equiv invoke.ret m.ret ∧
          List.Forall₂ (fun s t => cat.equiv s t) invoke.params m.params) ∧
        (m.isStatic → receiver.isNull) ∧
        (m.isStatic = false → (Slot.boxedOf cat (.entry m.declaring)).accepts cat receiver) := by
  obtain ⟨-, layout, hregions, -, htable⟩ := tabulates_of_verify h
  obtain ⟨hi, -⟩ := List.getElem?_eq_some_iff.1 hnew
  obtain ⟨entry, out, hpass⟩ := htable.pass hnew
  have hentry := hpass.table_eq
  obtain ⟨pointer, m, receiver, rest, rfl, hbinds⟩ := Rule.binds_of_step hdelegate hpass.step_eq
  -- the stack that the constructor starts with comes from the load
  obtain ⟨j, load, before, rfl, hload, hfalls, hbefore, hloaded⟩ :=
    htable.step_of_not_landing hregions hi hbinds.not_landing hentry (by simp)
  have hpattern : load = .ldftn m ∨ load = .ldvirtftn m ∧ body.before? (j + 1) 2 = some .dup := by
    have hat : body.before? (j + 1) 1 = some load := hload
    rcases Body.functionBefore?_eq_some_iff.1 hbinds.function with hm | ⟨hdup, hm⟩
    · exact Or.inl (Option.some.inj (hat.symm.trans hm))
    · exact Or.inr ⟨Option.some.inj (hat.symm.trans hm), hdup⟩
  -- and the load has found the receiver on its own, which comes from the instruction before it
  have hne : before ≠ [] := Rule.ne_nil_of_load (hpattern.imp_right And.left) hloaded
  obtain ⟨k, first, _, rfl, hfirst, hfalls', -, -⟩ := htable.step_of_not_landing hregions
    (List.getElem?_eq_some_iff.1 hload).1 hbinds.not_landing_before hbefore hne
  obtain ⟨n, invoke, hinvoke, hsig⟩ := hbinds.signature
  refine ⟨k, m, rfl, ?_, Body.onlyRunsOn_of_not_landing hfirst hfalls' hbinds.not_landing_before,
    Body.onlyRunsOn_of_not_landing hload hfalls hbinds.not_landing, before, pointer, receiver, rest,
    hbefore, ?_, hentry, ⟨n, invoke, hinvoke, Catalog.sameSignature_iff.1 hsig⟩,
    hbinds.receives.static, hbinds.receives.object⟩
  · rcases hpattern with rfl | ⟨rfl, hdup⟩
    · exact Or.inl hload
    · exact Or.inr ⟨hload, hdup⟩
  · rw [Rule.stepAt, hload]
    exact hloaded

/-- A class of delegates that are called with a string, and another class. -/
def observerCatalog : Catalog :=
  ((Catalog.core.declareClass ⟨"N.Observer"⟩ EntryId.multicastDelegate).2.declareClass
    ⟨"N.Gauge"⟩ EntryId.object).2.declareMethod
      ⟨23, .invoke, [.string], .void, false, true⟩

/-- A method of the second class that fits the delegates. -/
def gaugeMethod : Method := ⟨24, ⟨"Show", rfl⟩, [.string], .void, false, true⟩

/-- A body that makes a delegate, or jumps past it. -/
def observeGauge : Body where
  name := "observeGauge"
  signature := ⟨.object, [.declared (.entry 24)], .declared .void, true, .direct⟩
  locals := [.ofPrimitive .int32]
  code :=
    [.ldvar (.loc 0), .brtrue 7, .ldvar (.arg 0), .dup, .ldvirtftn gaugeMethod,
      .newobj ⟨23, .constructor, [.object, .ofPrimitive .intptr], .void, false, false⟩, .pop, .ret]
  regions := []

def observeGaugeTyping : Typing :=
  ⟨#[[], [.ofPrimitive .int32], [], [.declared (.entry 24)],
    [.declared (.entry 24), .declared (.entry 24)],
    [.ofPrimitive .intptr, .declared (.entry 24)], [.declared (.entry 23)], []]⟩

/-- The body is accepted. Control gets to the load and to the constructor by running on alone, and
the receiver may be bound to the function. -/
theorem delegate_untampered_gauge :
    verify observerCatalog observeGauge {} = .ok observeGaugeTyping ∧
      observerCatalog.isDelegate (.entry 23) ∧
      observeGauge.OnlyRunsOn 3 ∧ observeGauge.OnlyRunsOn 4 ∧
      (Slot.boxedOf observerCatalog (.entry gaugeMethod.declaring)).accepts observerCatalog
        (.declared (.entry 24)) := by
  have h : verify observerCatalog observeGauge {} = .ok observeGaugeTyping := by decide +kernel
  have hdelegate : observerCatalog.isDelegate (.entry 23) := by decide +kernel
  obtain ⟨k, m, hk, hload, hbefore, hafter, _, _, _, _, -, -, hentry, -, -, hobject⟩ :=
    delegate_untampered h (i := 5) rfl hdelegate
  obtain rfl : k = 3 := by omega
  cases hentry
  rcases hload with hload | ⟨hload, -⟩
  · cases hload
  · cases hload
    exact ⟨h, hdelegate, hbefore, hafter, hobject rfl⟩

end StackTyping
