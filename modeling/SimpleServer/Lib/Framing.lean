import Mathlib.Tactic

/-!
# Concatenations of frames

A stream of frames is a concatenation of lists that satisfy a predicate. Frames that delimit
themselves are found again from the start of the stream: what follows a stream of frames is a
stream of frames if the whole is one.

* `Framed.append`, `Framed.flatten`: how streams of frames are made.
* `Framed.cancel`: **frames at the start can be taken away.**
* `Framed.first`: the first frame of a stream is the one it starts with.
-/

namespace Lib

variable {α : Type}

/-- A concatenation of frames. -/
inductive Framed (IsFrame : List α → Prop) : List α → Prop
  | nil : Framed IsFrame []
  | cons {frame rest : List α} (h : IsFrame frame) (hrest : Framed IsFrame rest) :
    Framed IsFrame (frame ++ rest)

/-- Two frames that start the same stream are the same. -/
def SelfDelimiting (IsFrame : List α → Prop) : Prop :=
  ∀ {frame frame' rest rest' : List α}, IsFrame frame → IsFrame frame' →
    frame ++ rest = frame' ++ rest' → frame = frame'

variable {IsFrame IsFrame' : List α → Prop} {xs ys : List α}

theorem Framed.single (h : IsFrame xs) : Framed IsFrame xs := by
  have := Framed.cons h .nil
  rwa [List.append_nil] at this

theorem Framed.append (h : Framed IsFrame xs) (h' : Framed IsFrame ys) :
    Framed IsFrame (xs ++ ys) := by
  induction h with
  | nil => exact h'
  | cons hframe _ ih =>
    rw [List.append_assoc]
    exact .cons hframe ih

theorem Framed.flatten {chunks : List (List α)} (h : ∀ chunk ∈ chunks, Framed IsFrame chunk) :
    Framed IsFrame chunks.flatten := by
  induction chunks with
  | nil => exact .nil
  | cons chunk chunks ih =>
    rw [List.flatten_cons]
    exact (h chunk List.mem_cons_self).append
      (ih fun c hc => h c (List.mem_cons_of_mem chunk hc))

/-- What follows frames in a stream of frames is one. -/
theorem Framed.cancel (hself : SelfDelimiting IsFrame) (h : Framed IsFrame xs)
    (hall : Framed IsFrame (xs ++ ys)) : Framed IsFrame ys := by
  induction h with
  | nil => exact hall
  | @cons frame rest hframe _ ih =>
    apply ih
    rw [List.append_assoc] at hall
    generalize hstream : frame ++ (rest ++ ys) = stream at hall
    cases hall with
    | nil =>
      rw [(List.append_eq_nil_iff.1 hstream).2]
      exact .nil
    | cons hframe' hrest' =>
      obtain rfl := hself hframe hframe' hstream
      rwa [List.append_cancel_left hstream]

/-- A frame at the start of a stream of frames is one of these. -/
theorem Framed.first (hself : SelfDelimiting IsFrame) (himp : ∀ {f}, IsFrame' f → IsFrame f)
    (hframe : IsFrame xs) (hne : xs ≠ []) (hall : Framed IsFrame' (xs ++ ys)) : IsFrame' xs := by
  generalize hstream : xs ++ ys = stream at hall
  cases hall with
  | nil => exact absurd (List.append_eq_nil_iff.1 hstream).1 hne
  | cons hframe' hrest' =>
    obtain rfl := hself hframe (himp hframe') hstream
    exact hframe'

end Lib
