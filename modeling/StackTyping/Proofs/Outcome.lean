import Mathlib.Tactic.Common
import StackTyping.Rule.Basic

/-!
Taking successful computations apart: checks that may report a fault, and rules that act on a
stack. Two checks agree if they come to the same end, with related values or with related errors.
-/

namespace StackTyping

lemma bind_eq_ok_iff {ε α β : Type} {x : Except ε α} {f : α → Except ε β} {r : β} :
    x >>= f = .ok r ↔ ∃ a, x = .ok a ∧ f a = .ok r := by
  cases x with
  | error e => simp [bind, Except.bind]
  | ok a => simp [bind, Except.bind]

lemma exists_bind_eq_ok_iff {ε α β : Type} {x : Except ε α} {f : α → Except ε β} :
    (∃ r, x >>= f = .ok r) ↔ ∃ a, x = .ok a ∧ ∃ r, f a = .ok r := by
  simp only [bind_eq_ok_iff]
  constructor
  · rintro ⟨r, a, ha, hr⟩
    exact ⟨a, ha, r, hr⟩
  · rintro ⟨a, ha, r, hr⟩
    exact ⟨r, a, ha, hr⟩

lemma isOk_iff {ε α : Type} {x : Except ε α} : x.isOk ↔ ∃ a, x = .ok a := by
  cases x with
  | error e => simp [Except.isOk, Except.toBool]
  | ok a => simp [Except.isOk, Except.toBool]

lemma forM_eq_ok_iff {ε α : Type} {l : List α} {f : α → Except ε Unit} :
    l.forM f = .ok () ↔ ∀ a ∈ l, f a = .ok () := by
  induction l with
  | nil => exact iff_of_true rfl (List.forall_mem_nil _)
  | cons a rest ih =>
    change (f a >>= fun _ => rest.forM f) = .ok () ↔ _
    rw [bind_eq_ok_iff, List.forall_mem_cons, ← ih]
    exact ⟨fun ⟨_, ha, hrest⟩ => ⟨ha, hrest⟩, fun ⟨ha, hrest⟩ => ⟨_, ha, hrest⟩⟩

@[simp] lemma Fault.check_eq_ok_iff {ok : Bool} {fault : Fault} {u : Unit} :
    Fault.check ok fault = .ok u ↔ ok = true := by
  cases ok <;> simp [Fault.check]

/-! ### Checks that agree -/

/-- Both computations succeed with related values, or both fail with related errors. -/
inductive Agree {ε α β : Type} (E : ε → ε → Prop) (Q : α → β → Prop) :
    Except ε α → Except ε β → Prop where
  | ok {a : α} {b : β} (h : Q a b) : Agree E Q (.ok a) (.ok b)
  | error {e e' : ε} (h : E e e') : Agree E Q (.error e) (.error e')

lemma Agree.imp {ε α β : Type} {E E' : ε → ε → Prop} {Q Q' : α → β → Prop} {x : Except ε α}
    {y : Except ε β} (h : Agree E Q x y) (hE : ∀ e e', E e e' → E' e e')
    (hQ : ∀ a b, Q a b → Q' a b) : Agree E' Q' x y := by
  cases h with
  | ok hab => exact .ok (hQ _ _ hab)
  | error he => exact .error (hE _ _ he)

lemma Agree.eq_of_eq {ε α : Type} {E : ε → ε → Prop} {Q : α → α → Prop} {x y : Except ε α}
    (h : Agree E Q x y) (hE : ∀ e e', E e e' → e = e') (hQ : ∀ a b, Q a b → a = b) : x = y := by
  cases h with
  | ok hab => rw [hQ _ _ hab]
  | error he => rw [hE _ _ he]

lemma Agree.bind {ε α α' β β' : Type} {E : ε → ε → Prop} {Q : α → β → Prop} {R : α' → β' → Prop}
    {x : Except ε α} {y : Except ε β} {f : α → Except ε α'} {g : β → Except ε β'}
    (h : Agree E Q x y) (hfg : ∀ a b, Q a b → Agree E R (f a) (g b)) :
    Agree E R (x >>= f) (y >>= g) := by
  cases h with
  | ok hab => exact hfg _ _ hab
  | error he => exact .error he

lemma Agree.check {E : Fault → Fault → Prop} {ok ok' : Bool} {fault fault' : Fault}
    (hok : ok = ok') (hfault : E fault fault') :
    Agree E Eq (Fault.check ok fault) (Fault.check ok' fault') := by
  subst hok
  cases ok with
  | true => exact .ok rfl
  | false => exact .error hfault

namespace Rule

variable {α β : Type} {stack out : Stack} {r : Rule α} {f : α → Rule β} {y : β}

lemma bind_eq_ok_iff : (r >>= f) stack = .ok y out ↔
    ∃ a mid, r stack = .ok a mid ∧ f a mid = .ok y out := by
  simp only [bind, EStateM.bind]
  cases r stack with
  | ok a mid => simp
  | error e mid => simp

@[simp] lemma pure_eq_ok_iff {a b : α} :
    (pure a : Rule α) stack = .ok b out ↔ a = b ∧ stack = out := by
  simp [pure, EStateM.pure]

lemma throw_ne_ok {fault : Fault} {a : α} : (throw fault : Rule α) stack ≠ .ok a out := by
  intro h
  cases h

@[simp] lemma require_eq_ok_iff {ok : Bool} {fault : Fault} {u : Unit} :
    require ok fault stack = .ok u out ↔ ok = true ∧ stack = out := by
  cases ok with
  | true => simp [require]
  | false => simp [require, throw_ne_ok]

@[simp] lemma pop_eq_ok_iff {s : Slot} : pop stack = .ok s out ↔ stack = s :: out := by
  cases stack with
  | nil => simp [pop]
  | cons a rest => simp [pop]

end Rule

end StackTyping
