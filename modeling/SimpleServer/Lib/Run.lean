import Mathlib.Tactic

/-!
# Runs of a step function

A run feeds a list of events to a step function. `Along` says that every step of a
run meets a condition on the state before it and its event.

* `along_iff`: in terms of every way to split the events at a step.
* `Along.invariant`: what every step under the condition preserves holds at the end.
* `Along.imp`: what follows from the condition and an invariant holds at every step.
* `Along.simulation`: a run and the run without some of its events, whose steps keep
  their states related, show the same at the events both have.
* `answers_of_sim`: two step functions that answer alike in related states answer alike in
  every run.
-/

namespace Lib

variable {S T E O : Type}

/-- The state at the end of a run. -/
def runFrom (step : S → E → S) (s : S) (es : List E) : S := es.foldl step s

@[simp] theorem runFrom_nil (step : S → E → S) (s : S) : runFrom step s [] = s := rfl

@[simp] theorem runFrom_cons (step : S → E → S) (s : S) (e : E) (es : List E) :
    runFrom step s (e :: es) = runFrom step (step s e) es := rfl

@[simp] theorem runFrom_append (step : S → E → S) (s : S) (es es' : List E) :
    runFrom step s (es ++ es') = runFrom step (runFrom step s es) es' := List.foldl_append

/-- Every step of the run from `s` over the events meets `C`. -/
def Along (step : S → E → S) (C : S → E → Prop) : S → List E → Prop
  | _, [] => True
  | s, e :: es => C s e ∧ Along step C (step s e) es

instance decidableAlong {step : S → E → S} {C : S → E → Prop} [∀ s e, Decidable (C s e)] :
    ∀ (s : S) (es : List E), Decidable (Along step C s es)
  | _, [] => isTrue trivial
  | s, e :: es => @instDecidableAnd _ _ _ (decidableAlong (step s e) es)

variable {step : S → E → S} {C : S → E → Prop}

theorem along_append {s : S} {es es' : List E} :
    Along step C s (es ++ es') ↔ Along step C s es ∧ Along step C (runFrom step s es) es' := by
  induction es generalizing s with
  | nil => simp [Along]
  | cons e es ih => simp [Along, ih, and_assoc]

/-- **A condition along a run**, step by step. -/
theorem along_iff {s : S} {es : List E} :
    Along step C s es ↔ ∀ pre e post, es = pre ++ e :: post → C (runFrom step s pre) e := by
  constructor
  · intro h pre e post hes
    subst hes
    exact (along_append.1 h).2.1
  · intro h
    induction es generalizing s with
    | nil => trivial
    | cons e es ih =>
      refine ⟨h [] e es rfl, ih ?_⟩
      intro pre e' post hes
      subst hes
      exact h (e :: pre) e' post rfl

/-- Conditions that agree at every step. -/
theorem along_congr {D : S → E → Prop} (h : ∀ s e, C s e ↔ D s e) {s : S} {es : List E} :
    Along step C s es ↔ Along step D s es := by
  induction es generalizing s with
  | nil => exact Iff.rfl
  | cons e es ih => rw [Along, Along, h, ih]

/-- **Invariant rule.** What every step under the condition preserves holds at the end of
a run whose steps all meet the condition. -/
theorem Along.invariant {I : S → Prop} (hstep : ∀ s e, I s → C s e → I (step s e))
    {s : S} {es : List E} (hs : I s) (h : Along step C s es) : I (runFrom step s es) := by
  induction es generalizing s with
  | nil => exact hs
  | cons e es ih => exact ih (hstep s e hs h.1) h.2

/-- A second condition that follows from the first one in the states of an invariant. -/
theorem Along.imp {I : S → Prop} {D : S → E → Prop}
    (hstep : ∀ s e, I s → C s e → I (step s e)) (hD : ∀ s e, I s → C s e → D s e)
    {s : S} {es : List E} (hs : I s) (h : Along step C s es) : Along step D s es := by
  induction es generalizing s with
  | nil => trivial
  | cons e es ih => exact ⟨hD s e hs h.1, ih (hstep s e hs h.1) h.2⟩

/-- What a run shows at the events `keep` picks. -/
def outputs (step : S → E → S) (out : S → E → O) (keep : E → Bool) : S → List E → List O
  | _, [] => []
  | s, e :: es =>
    if keep e then out s e :: outputs step out keep (step s e) es
    else outputs step out keep (step s e) es

/-- **Simulation with skipped events.** The second run only has the events `keep` picks. If
two states stay related over a kept event on both sides and over a skipped one on the first
side, and a kept event shows the same, then both runs show the same. -/
theorem Along.simulation {step' : T → E → T} {out : S → E → O} {out' : T → E → O}
    {R : S → T → Prop} {keep : E → Bool}
    (hskip : ∀ s t e, R s t → C s e → keep e = false → R (step s e) t)
    (hkeep : ∀ s t e, R s t → C s e → keep e = true →
      R (step s e) (step' t e) ∧ out s e = out' t e)
    {s : S} {t : T} {es : List E} (hR : R s t) (h : Along step C s es) :
    outputs step out keep s es = outputs step' out' keep t (es.filter keep) := by
  induction es generalizing s t with
  | nil => rfl
  | cons e es ih =>
    cases hke : keep e with
    | true =>
      obtain ⟨hR', hout⟩ := hkeep s t e hR h.1 hke
      rw [List.filter_cons_of_pos hke]
      simp only [outputs, hke, if_true]
      rw [ih hR' h.2, hout]
    | false =>
      rw [List.filter_cons_of_neg (by simp [hke])]
      simp only [outputs, hke, Bool.false_eq_true, if_false]
      exact ih (hskip s t e hR h.1 hke) h.2

/-! ## Runs with answers -/

/-- The answers of a run, one for each event, of a step function that gives one. -/
def answers (step : S → E → S × O) : S → List E → List O
  | _, [] => []
  | s, e :: es => (step s e).2 :: answers step (step s e).1 es

/-- The state at the end of such a run. -/
def finalState (step : S → E → S × O) (s : S) (es : List E) : S :=
  runFrom (fun s e => (step s e).1) s es

/-- **Simulation rule.** If related states answer every event alike and stay related, so do
the runs from them. -/
theorem answers_of_sim {step : S → E → S × O} {step' : T → E → T × O} {R : S → T → Prop}
    (hstep : ∀ s t e, R s t → R (step s e).1 (step' t e).1 ∧ (step s e).2 = (step' t e).2)
    {s : S} {t : T} (hR : R s t) (es : List E) :
    answers step s es = answers step' t es ∧
      R (finalState step s es) (finalState step' t es) := by
  induction es generalizing s t with
  | nil => exact ⟨rfl, hR⟩
  | cons e es ih =>
    have hone := hstep s t e hR
    have hrest := ih hone.1
    exact ⟨by simp only [answers, hone.2, hrest.1], hrest.2⟩

end Lib
