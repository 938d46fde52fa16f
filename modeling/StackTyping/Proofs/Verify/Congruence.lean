import StackTyping.Proofs.Catalog.Congruence
import StackTyping.Proofs.Layout.Congruence
import StackTyping.Proofs.Rule.Congruence
import StackTyping.Proofs.Slot.Congruence
import StackTyping.Verify

/-!
The choice between equivalent types never shows in the outcome of a pass.

Two passes over related bodies go on in step. What they have fixed and what they have received so
far are stacks of related slots; so each check comes out the same in both, and where one pass ends
the other ends, with a related fault. Equivalent types are a case of this.
-/

namespace StackTyping

variable {T : Ty → Ty → Prop} {cat cat' : Catalog} {body body' : Body} {settings : Settings}
  {layout layout' : Layout}

/-! ### Flows -/

/-- Passes that have come equally far, with stacks of related slots. -/
structure Flow.Related (T : Ty → Ty → Prop) (flow flow' : Flow) : Prop where
  entries : List.Forall₂ (Stack.Related T) flow.entries.toList flow'.entries.toList
  pending : List.Forall₂ (fun p q : Nat × Stack => p.1 = q.1 ∧ p.2.Related T q.2) flow.pending
    flow'.pending

namespace Flow.Related

variable {flow flow' : Flow} {s t : Stack} {source target : Nat}

lemma start : Flow.Related T .start .start := ⟨.nil, .nil⟩

lemma fix (h : flow.Related T flow') (hst : s.Related T t) :
    (flow.fix s).Related T (flow'.fix t) := by
  refine ⟨?_, h.pending⟩
  rw [Flow.fix, Flow.fix, Array.toList_push, Array.toList_push]
  exact List.rel_append h.entries (.cons hst .nil)

lemma receive (h : flow.Related T flow') (hst : s.Related T t) :
    Flow.Related T { flow with pending := (target, s) :: flow.pending }
      { flow' with pending := (target, t) :: flow'.pending } :=
  ⟨h.entries, .cons ⟨rfl, hst⟩ h.pending⟩

lemma lookup_rel (h : flow.Related T flow') (i : Nat) :
    Option.Rel (Stack.Related T) (flow.pending.lookup i) (flow'.pending.lookup i) := by
  obtain ⟨-, hpending⟩ := h
  generalize flow.pending = pending at hpending ⊢
  generalize flow'.pending = pending' at hpending ⊢
  induction hpending with
  | nil => exact .none
  | @cons p q _ _ hpq _ ih =>
    rw [List.lookup_cons, List.lookup_cons, hpq.1]
    split
    · exact .some hpq.2
    · exact ih

lemma received (h : flow.Related T flow') (i : Nat) :
    (flow.received i).Related T (flow'.received i) := by
  have hlookup := h.lookup_rel i
  unfold Flow.received
  generalize flow.pending.lookup i = s? at hlookup ⊢
  generalize flow'.pending.lookup i = t? at hlookup ⊢
  cases hlookup with
  | none => exact .nil
  | some hst => exact hst

/-- Carrying related stacks keeps two passes in step, or ends both. -/
lemma carry (hcat : Catalog.Corresponds T cat cat') (h : flow.Related T flow')
    (hst : s.Related T t) :
    Agree (Fault.Related T) (Flow.Related T) (flow.carry cat source target s)
      (flow'.carry cat' source target t) := by
  unfold Flow.carry
  split
  -- forward: the stacks are merged into what came before
  · have hlookup := h.lookup_rel target
    generalize flow.pending.lookup target = s? at hlookup ⊢
    generalize flow'.pending.lookup target = t? at hlookup ⊢
    cases hlookup with
    | none => exact .ok (h.receive hst)
    | some hearlier =>
      exact (hcat.stack_merge hearlier hst).bind fun _ _ hmerged => .ok (h.receive hmerged)
  -- backward: they are compared with what is fixed
  · have hentry : Option.Rel (Stack.Related T) flow.entries[target]? flow'.entries[target]? := by
      rw [← Array.getElem?_toList, ← Array.getElem?_toList]
      exact getElem?_rel h.entries target
    generalize flow.entries[target]? = s? at hentry ⊢
    generalize flow'.entries[target]? = t? at hentry ⊢
    cases hentry with
    | none => exact .error (.plain rfl)
    | some hfixed =>
      dsimp only
      rw [hfixed.length_eq, hst.length_eq, hcat.stack_accepts hfixed hst]
      split
      · exact .error (.plain rfl)
      · split
        · exact .ok h
        · exact .error (.backwardBranch hfixed hst)

end Flow.Related

/-! ### Visits -/

lemma checkHeight_congr {s t : Stack} (hst : s.Related T t) :
    Agree (Fault.Related T) Eq (settings.checkHeight s) (settings.checkHeight t) := by
  unfold Settings.checkHeight
  rw [hst.length_eq]
  split
  · exact .check rfl (.plain rfl)
  · exact .ok rfl

section Corresponds

variable {flow flow' : Flow} {instr instr' : Instr} {s t : Stack} {i : Nat}
  (hcat : Catalog.Corresponds T cat cat')
include hcat

lemma entryStack_congr (hlayout : layout.Related T layout') (hst : s.Related T t) :
    Agree (Fault.Related T) (Stack.Related T)
      (Scope.entryStack ⟨cat, body, settings⟩ layout i s)
      (Scope.entryStack ⟨cat', body', settings⟩ layout' i t) := by
  have hchecked : ∀ u v : Stack, u.Related T v → Agree (Fault.Related T) (Stack.Related T)
      (if settings.emptyStackAtTry && layout.startsTry i && !u.isEmpty then
        .error (.blockEntry u.length)
      else do
        settings.checkHeight u
        return u)
      (if settings.emptyStackAtTry && layout'.startsTry i && !v.isEmpty then
        .error (.blockEntry v.length)
      else do
        settings.checkHeight v
        return v) := by
    intro u v huv
    rw [hlayout.startsTry_eq, isEmpty_eq huv, huv.length_eq]
    split
    · exact .error (.plain rfl)
    · exact (checkHeight_congr huv).bind fun _ _ _ => .ok huv
  have hexception := hcat.exceptionAt? hlayout i
  unfold Scope.entryStack
  dsimp only
  generalize layout.exceptionAt? cat i = a? at hexception ⊢
  generalize layout'.exceptionAt? cat' i = b? at hexception ⊢
  cases hexception with
  | none => exact hchecked s t hst
  | @some a b hab =>
    dsimp only
    rw [isEmpty_eq hst, hst.length_eq]
    split
    · exact hchecked [a] [b] (.cons hab .nil)
    · exact .error (.plain rfl)

lemma exitStack_congr (hinvoke : Catalog.SameInvoke T cat cat') (hbody : body.Related T body')
    (hlayout : layout.Related T layout') (hinstr : instr.Related T instr') (hst : s.Related T t) :
    Agree (Fault.Related T) (Stack.Related T)
      (Scope.exitStack ⟨cat, body, settings⟩ layout i instr s)
      (Scope.exitStack ⟨cat', body', settings⟩ layout' i instr' t) := by
  have hkeeps : Scope.Keeps ⟨cat, body, settings⟩ fun _ => True := .top _
  have hrespects := Comparison.respects_ofTypes hcat hinvoke hbody hkeeps
  have hrun := hrespects.relates_step i hinstr (fun _ _ _ _ => id)
    ((List.forall₂_and_left s t).2 ⟨fun _ _ => trivial, hst⟩)
  unfold Scope.exitStack
  refine (hlayout.checkPlace_congr hinstr settings i).bind fun _ _ _ => ?_
  generalize Rule.step ⟨cat, body, settings⟩ i instr s = x at hrun ⊢
  generalize Rule.step ⟨cat', body', settings⟩ i instr' t = y at hrun ⊢
  cases hrun with
  | ok _ hout =>
    have hout : Stack.Related T _ _ := ((List.forall₂_and_left _ _).1 hout).2
    exact (checkHeight_congr hout).bind fun _ _ _ => .ok hout
  | error hfg _ => exact .error (.rule (hfg.mono fun _ _ hab => hab.elim id And.right))
  | lenient h => exact h.elim

lemma follow_congr {source target : Nat} (hlayout : layout.Related T layout')
    (hflow : flow.Related T flow') (hst : s.Related T t) :
    Agree (Fault.Related T) (Flow.Related T)
      (Scope.follow ⟨cat, body, settings⟩ layout flow source target s)
      (Scope.follow ⟨cat', body', settings⟩ layout' flow' source target t) :=
  (hlayout.checkBranch_congr source target).bind fun _ _ _ => hflow.carry hcat hst

lemma followAll_congr {source : Nat} (hlayout : layout.Related T layout')
    (hflow : flow.Related T flow') (hst : s.Related T t) (targets : List Nat) :
    Agree (Fault.Related T) (Flow.Related T)
      (Scope.followAll ⟨cat, body, settings⟩ layout flow source s targets)
      (Scope.followAll ⟨cat', body', settings⟩ layout' flow' source t targets) := by
  induction targets generalizing flow flow' with
  | nil => exact .ok hflow
  | cons target rest ih =>
    exact (follow_congr hcat hlayout hflow hst).bind fun _ _ hmid => ih hmid

lemma jump_congr (hlayout : layout.Related T layout') (hinstr : instr.Related T instr')
    (hflow : flow.Related T flow') (hst : s.Related T t) :
    Agree (Fault.Related T) (Flow.Related T)
      (Scope.jump ⟨cat, body, settings⟩ layout flow i instr s)
      (Scope.jump ⟨cat', body', settings⟩ layout' flow' i instr' t) := by
  unfold Scope.jump
  cases hinstr with
  | plain _ _ =>
    split
    · exact hflow.carry hcat .nil
    · exact followAll_congr hcat hlayout hflow hst _
  | _ => exact followAll_congr hcat hlayout hflow hst _

lemma fallThrough_congr (hbody : body.Related T body') (hlayout : layout.Related T layout')
    (hinstr : instr.Related T instr') (hflow : flow.Related T flow') (hst : s.Related T t) :
    Agree (Fault.Related T) (Flow.Related T)
      (Scope.fallThrough ⟨cat, body, settings⟩ layout flow i instr s)
      (Scope.fallThrough ⟨cat', body', settings⟩ layout' flow' i instr' t) := by
  unfold Scope.fallThrough
  dsimp only
  rw [hinstr.fallsThrough_eq, hbody.code.length_eq]
  split
  · split
    · exact follow_congr hcat hlayout hflow hst
    · exact .error (.plain rfl)
  · exact .ok hflow

/-- **One visit**: two passes stay in step, or both end here. -/
lemma visit_congr (hinvoke : Catalog.SameInvoke T cat cat') (hbody : body.Related T body')
    (hlayout : layout.Related T layout') (hinstr : instr.Related T instr')
    (hflow : flow.Related T flow') (hst : s.Related T t) :
    Agree (Fault.Related T) (Flow.Related T)
      (Scope.visit ⟨cat, body, settings⟩ layout flow i instr s)
      (Scope.visit ⟨cat', body', settings⟩ layout' flow' i instr' t) :=
  (exitStack_congr hcat hinvoke hbody hlayout hinstr hst).bind fun _ _ hout =>
    (jump_congr hcat hlayout hinstr hflow hout).bind fun _ _ hmid =>
      fallThrough_congr hcat hbody hlayout hinstr hmid hout

end Corresponds

/-! ### Passes -/

/-- Refusals at one place with related faults. -/
structure Rejection.Related (T : Ty → Ty → Prop) (r r' : Rejection) : Prop where
  instruction? : r.instruction? = r'.instruction?
  fault : r.fault.Related T r'.fault

/-- Passes that fix stacks of related slots and end alike. -/
structure Report.Related (T : Ty → Ty → Prop) (report report' : Report) : Prop where
  entries : List.Forall₂ (Stack.Related T) report.entries.toList report'.entries.toList
  rejection? : Option.Rel (Rejection.Related T) report.rejection? report'.rejection?

section Corresponds

variable (hcat : Catalog.Corresponds T cat cat') (hinvoke : Catalog.SameInvoke T cat cat')
  (hbody : body.Related T body')
include hcat hinvoke hbody

/-- **The whole pass**, by one visit after the other. -/
theorem run_congr {flow flow' : Flow} {i : Nat} {code code' : List Instr}
    (hlayout : layout.Related T layout') (hcode : List.Forall₂ (Instr.Related T) code code')
    (hflow : flow.Related T flow') :
    (Scope.run ⟨cat, body, settings⟩ layout flow i code).Related T
      (Scope.run ⟨cat', body', settings⟩ layout' flow' i code') := by
  induction hcode generalizing flow flow' i with
  | nil => exact ⟨hflow.entries, .none⟩
  | @cons instr instr' _ _ hinstr _ ih =>
    unfold Scope.run
    have hentry : Agree (Fault.Related T) (Stack.Related T)
        (Scope.entryStack ⟨cat, body, settings⟩ layout i (flow.received i))
        (Scope.entryStack ⟨cat', body', settings⟩ layout' i (flow'.received i)) :=
      entryStack_congr hcat hlayout (hflow.received i)
    generalize Scope.entryStack ⟨cat, body, settings⟩ layout i (flow.received i) = x at hentry ⊢
    generalize Scope.entryStack ⟨cat', body', settings⟩ layout' i (flow'.received i) = y
      at hentry ⊢
    cases hentry with
    | error hfg => exact ⟨hflow.entries, .some ⟨rfl, hfg⟩⟩
    | @ok s t hst =>
      have hfix := hflow.fix hst
      have hvisit : Agree (Fault.Related T) (Flow.Related T)
          (Scope.visit ⟨cat, body, settings⟩ layout (flow.fix s) i instr s)
          (Scope.visit ⟨cat', body', settings⟩ layout' (flow'.fix t) i instr' t) :=
        visit_congr hcat hinvoke hbody hlayout hinstr hfix hst
      dsimp only
      generalize Scope.visit ⟨cat, body, settings⟩ layout (flow.fix s) i instr s = u at hvisit ⊢
      generalize Scope.visit ⟨cat', body', settings⟩ layout' (flow'.fix t) i instr' t = v
        at hvisit ⊢
      cases hvisit with
      | error hfg => exact ⟨hfix.entries, .some ⟨rfl, hfg⟩⟩
      | ok hmid => exact ih hmid

omit hcat hinvoke in
lemma layout_congr :
    Agree (Fault.Related T) (Layout.Related T) (Scope.layout ⟨cat, body, settings⟩)
      (Scope.layout ⟨cat', body', settings⟩) := by
  unfold Scope.layout
  dsimp only
  rw [isEmpty_eq hbody.code, hbody.code.length_eq]
  split
  · exact .error (.plain rfl)
  · have hlayout : Agree (RegionProblem.Related T) (Layout.Related T)
        (Layout.ofRegions body.regions body'.code.length)
        (Layout.ofRegions body'.regions body'.code.length) :=
      Layout.ofRegions_congr hbody.regions
    generalize Layout.ofRegions body.regions body'.code.length = x at hlayout ⊢
    generalize Layout.ofRegions body'.regions body'.code.length = y at hlayout ⊢
    cases hlayout with
    | error hproblem => exact .error (.regions hproblem)
    | ok hlayout => exact (hlayout.checkEnds_congr hbody.code).bind fun _ _ _ => .ok hlayout

lemma report_congr :
    (Scope.report ⟨cat, body, settings⟩).Related T (Scope.report ⟨cat', body', settings⟩) := by
  have hlayout : Agree (Fault.Related T) (Layout.Related T) (Scope.layout ⟨cat, body, settings⟩)
    (Scope.layout ⟨cat', body', settings⟩) := layout_congr hbody
  unfold Scope.report
  generalize Scope.layout ⟨cat, body, settings⟩ = x at hlayout ⊢
  generalize Scope.layout ⟨cat', body', settings⟩ = y at hlayout ⊢
  cases hlayout with
  | error hfg => exact ⟨.nil, .some ⟨rfl, hfg⟩⟩
  | ok hlayout => exact run_congr hcat hinvoke hbody hlayout hbody.code .start

/-- **Related bodies have related outcomes.** -/
theorem verify_congr (settings : Settings) :
    Agree (Rejection.Related T)
      (fun typing typing' =>
        List.Forall₂ (Stack.Related T) typing.entries.toList typing'.entries.toList)
      (verify cat body settings) (verify cat' body' settings) := by
  have hreport : (Scope.report ⟨cat, body, settings⟩).Related T
    (Scope.report ⟨cat', body', settings⟩) := report_congr hcat hinvoke hbody
  unfold verify
  generalize Scope.report ⟨cat, body, settings⟩ = report at hreport ⊢
  generalize Scope.report ⟨cat', body', settings⟩ = report' at hreport ⊢
  obtain ⟨entries, rejection?⟩ := report
  obtain ⟨entries', rejection?'⟩ := report'
  obtain ⟨hentries, hrejection⟩ := hreport
  dsimp only at hentries hrejection ⊢
  cases hrejection with
  | none => exact .ok hentries
  | some hr => exact .error hr

end Corresponds

lemma Rejection.Related.message_eq {r r' : Rejection} (hcat : Catalog.Corresponds T cat cat')
    (h : r.Related T r') : r.message cat = r'.message cat' := by
  unfold Rejection.message
  rw [h.instruction?, hcat.message h.fault]

/-! ### Equivalent types -/

/-- Bodies that differ in the choice between equivalent types only. -/
abbrev Body.Alike (cat : Catalog) (body body' : Body) : Prop :=
  body.Related (fun s t => cat.equiv s t) body'

/-- Stacks of equivalent slots. -/
abbrev Stack.Equiv (cat : Catalog) (a b : Stack) : Prop :=
  List.Forall₂ (fun s t : Slot => s.equiv cat t) a b

lemma Stack.equiv_of_related {a b : Stack} (h : a.Related (fun s t => cat.equiv s t) b) :
    a.Equiv cat b := h.imp fun _ _ => Slot.equiv_iff_related.2

/-- **The choice between equivalent types never shows.** Bodies that differ only in this choice are
both accepted, with stacks of equivalent slots on entry to each instruction, or both refused, at
one instruction and with faults of one kind and one wording. -/
theorem verify_alike {P : EntryId → Prop} (hcat : cat.Grown P) (hbody : body.Alike cat body')
    (settings : Settings) :
    Agree
      (fun r r' => r.instruction? = r'.instruction? ∧ r.fault.ctorIdx = r'.fault.ctorIdx ∧
        r.message cat = r'.message cat)
      (fun typing typing' =>
        List.Forall₂ (Stack.Equiv cat) typing.entries.toList typing'.entries.toList)
      (verify cat body settings) (verify cat body' settings) := by
  have hcorresponds := hcat.lawful.corresponds
  have hinvoke : Catalog.SameInvoke (fun s t => cat.equiv s t) cat cat :=
    fun _ _ => ⟨rfl, fun _ _ _ t _ => Catalog.equiv_refl t⟩
  refine (verify_congr hcorresponds hinvoke hbody settings).imp (fun r r' hr => ?_)
    fun typing typing' hentries => ?_
  · exact ⟨hr.instruction?, hr.fault.ctorIdx_eq, hr.message_eq hcorresponds⟩
  · exact hentries.imp fun _ _ => Stack.equiv_of_related

/-- A catalog in which arrays of strings were built twice. -/
def copiesCatalog : Catalog :=
  ((Catalog.core.newArray EntryId.string).2.newArray EntryId.string).2

/-- A method that names one type in its signature, its locals, an instruction and its exception
table. -/
def keepCaught (t : Ty) : Body where
  name := "keepCaught"
  signature := ⟨.object, [.declared t], .declared t, true, .direct⟩
  locals := [t]
  code := [.ldvar (.arg 0), .stvar (.loc 0), .leave 6, .castclass t, .stvar (.loc 0), .leave 6,
    .ldvar (.loc 0), .ret]
  regions := [⟨.typedCatch t, 0, 3, 3, 3, none⟩]

/-- The two arrays of strings are different entries, and the method is accepted with either. -/
theorem verify_alike_copies :
    (keepCaught (.entry 23)).Alike copiesCatalog (keepCaught (.entry 24)) ∧
      (verify copiesCatalog (keepCaught (.entry 23)) {}).isOk ∧
      Agree
        (fun r r' => r.instruction? = r'.instruction? ∧ r.fault.ctorIdx = r'.fault.ctorIdx ∧
          r.message copiesCatalog = r'.message copiesCatalog)
        (fun typing typing' =>
          List.Forall₂ (Stack.Equiv copiesCatalog) typing.entries.toList typing'.entries.toList)
        (verify copiesCatalog (keepCaught (.entry 23)) {})
        (verify copiesCatalog (keepCaught (.entry 24)) {}) := by
  have hcat : copiesCatalog.Grown fun _ => True :=
    (Catalog.Grown.core.apply (.newArray EntryId.string) (by decide) trivial).apply
      (.newArray EntryId.string) (by decide) trivial
  have heq : copiesCatalog.equiv (.entry 23) (.entry 24) := by decide +kernel
  have hslot : (Slot.declared (.entry 23)).Related (fun s t => copiesCatalog.equiv s t)
    (.declared (.entry 24)) := Slot.related_declared heq
  have hsame : ∀ instr : Instr, instr.Related (fun s t => copiesCatalog.equiv s t) instr :=
    fun _ => Instr.related_self fun t _ => Catalog.equiv_refl t
  have hcode : List.Forall₂ (Instr.Related fun s t => copiesCatalog.equiv s t)
      (keepCaught (.entry 23)).code (keepCaught (.entry 24)).code :=
    .cons (hsame _) (.cons (hsame _) (.cons (hsame _) (.cons (.castclass heq)
      (.cons (hsame _) (.cons (hsame _) (.cons (hsame _) (.cons (hsame _) .nil)))))))
  have hbody : (keepCaught (.entry 23)).Alike copiesCatalog (keepCaught (.entry 24)) :=
    ⟨⟨Catalog.equiv_refl _, .cons hslot .nil, hslot, rfl, rfl⟩, .cons heq .nil, hcode,
      .cons (.intro (.typedCatch heq)) .nil⟩
  exact ⟨hbody, by decide +kernel, verify_alike hcat hbody {}⟩

end StackTyping
