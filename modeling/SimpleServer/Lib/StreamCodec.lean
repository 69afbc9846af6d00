import Mathlib.Tactic

/-!
# Streaming compressors and decompressors

A codec is called again and again, each time with the input that is left and with room for output.
A call takes some of the input, writes at most as much as there is room for, and reports how it
went. The contract is that of the usual compression libraries.

* `StreamCodec`: the calls of a codec, and what the contract says about them.
* `StreamEncoder`: a codec that has taken all input when it reports the end.
* `expander`: a codec that writes every element of the input several times.
-/

namespace Lib

/-- What a call reports. -/
inductive StreamReport where
  | ok
  | streamEnd
  | bufError
  | error
deriving Repr, DecidableEq

/-- Whether the codec is asked to go on or to come to the end. -/
inductive StreamOp where
  | flush
  | finish
deriving Repr, DecidableEq

/-- What a call does. -/
structure StreamCall (σ α : Type) where
  state : σ
  consumed : ℕ
  written : List α
  report : StreamReport
deriving Repr, DecidableEq

/-- A codec that meets the contract. What it has written, what it has ready and is still to write,
and a bound on the work that is left are a part of its state. -/
structure StreamCodec (σ α : Type) where
  call : σ → StreamOp → List α → ℕ → StreamCall σ α
  wrote : σ → List α
  pending : σ → List α
  work : σ → StreamOp → List α → ℕ
  consumed_le : ∀ s op input room, (call s op input room).consumed ≤ input.length
  written_le : ∀ s op input room, (call s op input room).written.length ≤ room
  wrote_call : ∀ s op input room,
    wrote (call s op input room).state = wrote s ++ (call s op input room).written
  /-- A call that goes well makes progress. -/
  progress : ∀ s op input room, (call s op input room).report = .ok →
    work (call s op input room).state op (input.drop (call s op input room).consumed) <
      work s op input
  /-- Output stays behind only when the room is used up. -/
  room : ∀ s op input room, (call s op input room).report = .ok →
    (call s op input room).written.length < room →
      (call s op input room).consumed = input.length ∧ pending (call s op input room).state = []
  /-- The end is reported when everything was written. -/
  ended : ∀ s op input room, (call s op input room).report = .streamEnd →
    pending (call s op input room).state = []
  /-- A buffer error is reported where no progress is possible. -/
  stuck : ∀ s op input room, (call s op input room).report = .bufError →
    (call s op input room).consumed = 0 ∧ (call s op input room).written = []

/-- An encoder reports the end when it has taken all of the input. -/
structure StreamEncoder (σ α : Type) extends StreamCodec σ α where
  takesAll : ∀ s op input room, (call s op input room).report = .streamEnd →
    (call s op input room).consumed = input.length

/-! ## A codec -/

section Expander

variable {α : Type}

/-- What an expander has written, and what it has ready. -/
structure ExpanderState (α : Type) where
  wrote : List α
  pending : List α
deriving Repr, DecidableEq

/-- Everything that an expander has ready after it has taken its input. -/
def ExpanderState.ready (times : ℕ) (s : ExpanderState α) (input : List α) : List α :=
  s.pending ++ input.flatMap fun a => List.replicate times a

/-- It takes all of the input at once, and writes what there is room for. -/
def expanderCall (times : ℕ) (s : ExpanderState α) (op : StreamOp) (input : List α) (room : ℕ) :
    StreamCall (ExpanderState α) α where
  state := ⟨s.wrote ++ (s.ready times input).take room, (s.ready times input).drop room⟩
  consumed := input.length
  written := (s.ready times input).take room
  report :=
    if op = .finish ∧ (s.ready times input).length ≤ room then .streamEnd
    else if input.length = 0 ∧ ((s.ready times input).take room).length = 0 then .bufError
    else .ok

theorem length_ready (times : ℕ) (s : ExpanderState α) (input : List α) :
    (s.ready times input).length = s.pending.length + times * input.length := by
  rw [ExpanderState.ready, List.length_append, List.length_flatMap]
  simp [Nat.mul_comm]

/-- A codec that writes every element of the input several times. -/
def expander (times : ℕ) : StreamEncoder (ExpanderState α) α where
  call := expanderCall times
  wrote s := s.wrote
  pending s := s.pending
  work s _ input := s.pending.length + (times + 1) * input.length
  consumed_le _ _ _ _ := Nat.le_refl _
  written_le s _ input room := List.length_take_le room (s.ready times input)
  wrote_call _ _ _ _ := rfl
  progress s op input room h := by
    have hlength := length_ready times s input
    have hsum : (times + 1) * input.length = times * input.length + input.length := by ring
    simp only [expanderCall, List.drop_length, List.length_drop, List.length_nil, Nat.mul_zero,
      List.length_take] at h ⊢
    split_ifs at h with hend hstuck
    omega
  room s op input room h hless := by
    refine ⟨rfl, ?_⟩
    simp only [expanderCall, List.length_take] at hless ⊢
    exact List.drop_eq_nil_of_le (by omega)
  ended s op input room h := by
    simp only [expanderCall] at h ⊢
    split_ifs at h with hend
    exact List.drop_eq_nil_of_le hend.2
  stuck s op input room h := by
    simp only [expanderCall] at h ⊢
    split_ifs at h with hend hstuck
    exact ⟨hstuck.1, List.length_eq_zero_iff.1 hstuck.2⟩
  takesAll _ _ _ _ _ := rfl

end Expander

end Lib
