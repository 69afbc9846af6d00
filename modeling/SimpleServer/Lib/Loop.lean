import Mathlib.Tactic

/-!
# Loops

A loop makes one round after the other until a round ends it with a result.

* `run_iff`: a loop has a result if and only if rounds lead to a state whose round ends it.
* `run_unique`: however many rounds it is given, a loop has one result.
* `Reaches.invariant`: what every round keeps holds in every state that rounds lead to.
* `terminates`: a loop whose rounds go down a well-founded relation ends.
* `Descends`: such a relation for a loop with phases.
* `result_iff`: then its result is good if and only if no round spoils it.
-/

namespace Lib.Loop

variable {S R : Type*}

/-- What a round comes to. -/
inductive Round (S R : Type*) where
  | again (s : S)
  | done (r : R)

/-- So many rounds, and the result if one of them ends the loop. -/
def run (round : S → Round S R) : ℕ → S → Option R
  | 0, _ => none
  | fuel + 1, s =>
    match round s with
    | .again s' => run round fuel s'
    | .done r => some r

/-- Rounds lead from a state to another one. -/
inductive Reaches (round : S → Round S R) : S → S → Prop
  | refl (s : S) : Reaches round s s
  | step {s t u : S} : round s = .again t → Reaches round t u → Reaches round s u

variable {round : S → Round S R} {s t : S} {r r' : R} {fuel fuel' : ℕ} {I : S → Prop}

theorem run_again (h : round s = .again t) : run round (fuel + 1) s = run round fuel t := by
  rw [run, h]

theorem run_done (h : round s = .done r) : run round (fuel + 1) s = some r := by
  rw [run, h]

/-- **The result of a loop** is that of the round that ends it. -/
theorem run_iff : (∃ fuel, run round fuel s = some r) ↔
    ∃ last, Reaches round s last ∧ round last = .done r := by
  constructor
  · rintro ⟨fuel, h⟩
    induction fuel generalizing s with
    | zero => cases h
    | succ fuel ih =>
      cases hround : round s with
      | again t =>
        rw [run_again hround] at h
        obtain ⟨last, hreach, hdone⟩ := ih h
        exact ⟨last, .step hround hreach, hdone⟩
      | done r' =>
        rw [run_done hround] at h
        obtain rfl := Option.some.inj h
        exact ⟨s, .refl s, hround⟩
  · rintro ⟨last, hreach, hdone⟩
    induction hreach with
    | refl s => exact ⟨1, run_done hdone⟩
    | step hround _ ih =>
      obtain ⟨fuel, hrun⟩ := ih hdone
      exact ⟨fuel + 1, (run_again hround).trans hrun⟩

/-- A loop has one result. -/
theorem run_unique (h : run round fuel s = some r) (h' : run round fuel' s = some r') : r = r' := by
  induction fuel generalizing fuel' s with
  | zero => cases h
  | succ fuel ih =>
    cases fuel' with
    | zero => cases h'
    | succ fuel' =>
      cases hround : round s with
      | again t =>
        rw [run_again hround] at h h'
        exact ih h h'
      | done r'' =>
        rw [run_done hround] at h h'
        exact Option.some.inj (h.symm.trans h')

/-- **Invariant rule.** -/
theorem Reaches.invariant (hstep : ∀ s t, I s → round s = .again t → I t) (h : Reaches round s t)
    (hs : I s) : I t := by
  induction h with
  | refl s => exact hs
  | step hround _ ih => exact ih (hstep _ _ hs hround)

/-- A loop came closer to its last phase, or in the same phase less work is left. -/
def Descends (phase work : S → ℕ) : S → S → Prop :=
  InvImage (Prod.Lex (· < ·) (· < ·)) fun s => (phase s, work s)

theorem descends_wf (phase work : S → ℕ) : WellFounded (Descends phase work) :=
  InvImage.wf _ (WellFounded.prod_lex Nat.lt_wfRel.wf Nat.lt_wfRel.wf)

theorem descends_iff {phase work : S → ℕ} :
    Descends phase work t s ↔ phase t < phase s ∨ phase t = phase s ∧ work t < work s := by
  unfold Descends InvImage
  exact Prod.lex_def

theorem Descends.of_phase {phase work : S → ℕ} (h : phase t < phase s) :
    Descends phase work t s := descends_iff.2 (.inl h)

theorem Descends.of_work {phase work : S → ℕ} (h : phase t = phase s) (hwork : work t < work s) :
    Descends phase work t s := descends_iff.2 (.inr ⟨h, hwork⟩)

/-- **Termination rule.** -/
theorem terminates {rel : S → S → Prop} (hwf : WellFounded rel)
    (hstep : ∀ s t, I s → round s = .again t → I t ∧ rel t s) (hs : I s) :
    ∃ fuel r, run round fuel s = some r := by
  induction s using hwf.induction with
  | _ s ih =>
    cases hround : round s with
    | again t =>
      obtain ⟨ht, hless⟩ := hstep s t hs hround
      obtain ⟨fuel, r, hrun⟩ := ih t hless ht
      exact ⟨fuel + 1, r, (run_again hround).trans hrun⟩
    | done r => exact ⟨1, r, run_done hround⟩

/-- **Result rule.** A loop comes to a good result if and only if it is nowhere where a round
spoils it. -/
theorem result_iff {rel : S → S → Prop} {Q : R → Prop} {C : S → Prop} (hwf : WellFounded rel)
    (hstep : ∀ s t, I s → round s = .again t → (I t ∧ rel t s) ∧ C s)
    (hend : ∀ s r, I s → round s = .done r → (Q r ↔ C s)) (hs : I s) :
    (∃ fuel r, run round fuel s = some r ∧ Q r) ↔ ∀ t, Reaches round s t → C t := by
  have hkeep : ∀ s t, I s → round s = .again t → I t ∧ rel t s := fun s t hs h => (hstep s t hs h).1
  constructor
  · rintro ⟨fuel, r, hrun, hgood⟩ t hreach
    have ht := hreach.invariant (fun s t hs h => (hkeep s t hs h).1) hs
    cases hround : round t with
    | again u => exact (hstep t u ht hround).2
    | done r' =>
      obtain ⟨fuel', hrun'⟩ := run_iff.2 ⟨t, hreach, hround⟩
      rw [run_unique hrun hrun'] at hgood
      exact (hend t r' ht hround).1 hgood
  · intro hall
    obtain ⟨fuel, r, hrun⟩ := terminates hwf hkeep hs
    obtain ⟨last, hreach, hdone⟩ := run_iff.1 ⟨fuel, hrun⟩
    have hlast := hreach.invariant (fun s t hs h => (hkeep s t hs h).1) hs
    exact ⟨fuel, r, hrun, (hend last r hlast hdone).2 (hall last hreach)⟩

end Lib.Loop
