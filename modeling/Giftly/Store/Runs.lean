import Mathlib.Data.Option.Basic

/-!
# Runs of a step function

A system is given by a function that says what one action makes of a state, or that the action is not
possible there. A run is a list of actions taken one after the other. What every step keeps, every run
keeps: `runs_induct` is the rule for a property of states and `runs_rel` the one for a relation between
the state before and the state after.
-/

namespace Giftly.Store

variable {S A : Type} {step : S → A → Option S}

/-- The state after a list of actions; `none` when one of them is not possible. -/
def runs (step : S → A → Option S) : List A → S → Option S
  | [], s => some s
  | a :: as, s => (step s a).bind (runs step as)

/-- A run of several actions is a step and a run from there. -/
theorem runs_cons {a : A} {as : List A} {s s' : S} :
    runs step (a :: as) s = some s' ↔ ∃ s₁, step s a = some s₁ ∧ runs step as s₁ = some s' :=
  Option.bind_eq_some_iff

/-- A reflexive and transitive relation that every step is in holds between the ends of a run. -/
theorem runs_rel {R : S → S → Prop} (refl : ∀ s, R s s) (trans : ∀ {a b c}, R a b → R b c → R a c)
    (hstep : ∀ {s a s'}, step s a = some s' → R s s') {as : List A} {s s' : S}
    (h : runs step as s = some s') : R s s' := by
  induction as generalizing s with
  | nil =>
    obtain rfl := Option.some.inj h
    exact refl s
  | cons a as ih =>
    obtain ⟨s₁, h₁, h₂⟩ := runs_cons.mp h
    exact trans (hstep h₁) (ih h₂)

/-- A property that every step keeps holds after a run that starts in it. -/
theorem runs_induct {P : S → Prop} (hstep : ∀ {s a s'}, P s → step s a = some s' → P s')
    {as : List A} {s s' : S} (hs : P s) (h : runs step as s = some s') : P s' := by
  have hrel : P s → P s' :=
    @runs_rel S A step (fun a b => P a → P b) (fun _ hp => hp)
      (fun hab hbc hp => hbc (hab hp)) (fun h₁ hp => hstep hp h₁) as s s' h
  exact hrel hs

end Giftly.Store
