import Mathlib.Tactic

/-!
# Computations that change a state and may fail

Rules for `EStateM`: the state a failed computation leaves is not undone, as in C.

* `run_bind_of_ok`, `run_failIf_bind`: running a computation whose parts succeed.
* `run_bind_eq_ok`, `run_failIf_eq_ok`: **what a success says** about the parts.
* `Ends`: what holds when a computation is over, with one condition for a success and one for
  a failure; `Ends.bind` carries it through a sequence.
-/

namespace Lib

variable {ε σ α β : Type}

/-- Stops with the error if the condition holds. -/
def failIf (p : Prop) [Decidable p] (e : ε) : EStateM ε σ Unit :=
  if p then throw e else pure ()

theorem run_bind_of_ok {x : EStateM ε σ α} {s s' : σ} {a : α} (h : x.run s = .ok a s')
    (f : α → EStateM ε σ β) : (x >>= f).run s = (f a).run s' := by
  rw [EStateM.run_bind, h]

theorem run_bind_eq_ok {x : EStateM ε σ α} {f : α → EStateM ε σ β} {s s'' : σ} {b : β} :
    (x >>= f).run s = .ok b s'' ↔
      ∃ a s', x.run s = .ok a s' ∧ (f a).run s' = .ok b s'' := by
  rw [EStateM.run_bind]
  constructor
  · intro h
    cases hx : x.run s with
    | ok a s' =>
      rw [hx] at h
      exact ⟨a, s', rfl, h⟩
    | error e s' =>
      rw [hx] at h
      cases h
  · rintro ⟨a, s', hx, hf⟩
    rw [hx]
    exact hf

variable {p : Prop} [Decidable p] {e : ε} {s s' : σ}

theorem run_failIf_bind (h : ¬ p) (f : Unit → EStateM ε σ β) :
    (failIf p e >>= f).run s = (f ()).run s := by
  rw [failIf, if_neg h]
  rfl

theorem run_failIf_eq_ok {u : Unit} :
    (failIf p e : EStateM ε σ Unit).run s = .ok u s' ↔ ¬ p ∧ s = s' := by
  unfold failIf
  by_cases h : p
  · rw [if_pos h]
    exact ⟨nofun, fun h' => absurd h h'.1⟩
  · rw [if_neg h, EStateM.run_pure, EStateM.Result.ok.injEq]
    exact ⟨fun h' => ⟨h, h'.2⟩, fun h' => ⟨rfl, h'.2⟩⟩

theorem run_pure_eq_ok {a b : α} :
    (pure a : EStateM ε σ α).run s = .ok b s' ↔ a = b ∧ s = s' := by
  rw [EStateM.run_pure, EStateM.Result.ok.injEq]

/-! ## What holds at the end -/

/-- From `s` the computation ends in `Q` when it succeeds, and in `E` when it fails. -/
def Ends (x : EStateM ε σ α) (s : σ) (Q : α → σ → Prop) (E : σ → Prop) : Prop :=
  match x.run s with
  | .ok a s' => Q a s'
  | .error _ s' => E s'

variable {x : EStateM ε σ α} {f : α → EStateM ε σ β} {Q : α → σ → Prop} {R : β → σ → Prop}
  {E : σ → Prop}

theorem ends_iff :
    Ends x s Q E ↔
      (∀ a s', x.run s = .ok a s' → Q a s') ∧ ∀ e s', x.run s = .error e s' → E s' := by
  unfold Ends
  cases h : x.run s with
  | ok a s' =>
    refine ⟨fun hQ => ⟨?_, nofun⟩, fun h' => h'.1 a s' rfl⟩
    rintro a' s'' ⟨⟩
    exact hQ
  | error e s' =>
    refine ⟨fun hE => ⟨nofun, ?_⟩, fun h' => h'.2 e s' rfl⟩
    rintro e' s'' ⟨⟩
    exact hE

/-- **Sequence rule.** -/
theorem Ends.bind (hx : Ends x s Q E) (hf : ∀ a s', x.run s = .ok a s' → Q a s' →
    Ends (f a) s' R E) : Ends (x >>= f) s R E := by
  unfold Ends at hx ⊢
  rw [EStateM.run_bind]
  cases h : x.run s with
  | ok a s' =>
    rw [h] at hx
    exact hf a s' h hx
  | error e s' =>
    rw [h] at hx
    exact hx

theorem Ends.imp {Q' : α → σ → Prop} (h : Ends x s Q E) (hQ : ∀ a s', Q a s' → Q' a s') :
    Ends x s Q' E := by
  unfold Ends at h ⊢
  cases hx : x.run s with
  | ok a s' =>
    rw [hx] at h
    exact hQ a s' h
  | error e s' =>
    rw [hx] at h
    exact h

theorem ends_pure {a : α} : Ends (pure a : EStateM ε σ α) s Q E ↔ Q a s := Iff.rfl

theorem ends_throw {e : ε} : Ends (throw e : EStateM ε σ α) s Q E ↔ E s := Iff.rfl

/-- A first part whose result is known. -/
theorem ends_bind_of_ok {a : α} (h : x.run s = .ok a s') :
    Ends (x >>= f) s R E ↔ Ends (f a) s' R E := by
  unfold Ends
  rw [run_bind_of_ok h]

/-- A check that fails keeps the state. -/
theorem ends_failIf (hE : E s) :
    Ends (failIf p e : EStateM ε σ Unit) s (fun _ s' => ¬ p ∧ s' = s) E := by
  unfold failIf
  by_cases h : p
  · rw [if_pos h, ends_throw]
    exact hE
  · rw [if_neg h, ends_pure]
    exact ⟨h, rfl⟩

end Lib
