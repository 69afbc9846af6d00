import Mathlib.Tactic

/-!
# Hashing block by block

A hash function compresses one block after the other into its chain value. What comes in pieces is
kept until it fills a block.

* `compressAll_append`: a piece after what is there, from the chain value and the rest.
* `compressAll_rest_length`: how much is kept.
* `Stream.After.absorb`: **pieces, one after the other, are the whole.**
-/

namespace Lib

/-- A block length, and how a block goes into the chain value. -/
structure BlockHash (α σ : Type*) where
  blockLength : ℕ
  blockLength_pos : 0 < blockLength
  compress : σ → List α → σ

namespace BlockHash

variable {α σ : Type*} (hash : BlockHash α σ) {chain : σ} {data block rest : List α}

/-- Every full block of some data is compressed: the chain value, and what is left over. -/
def compressAll (chain : σ) (data : List α) : σ × List α :=
  if data.length < hash.blockLength then (chain, data)
  else
    compressAll (hash.compress chain (data.take hash.blockLength)) (data.drop hash.blockLength)
termination_by data.length
decreasing_by
  have hpos := hash.blockLength_pos
  rw [List.length_drop]
  omega

theorem compressAll_of_lt (h : data.length < hash.blockLength) :
    hash.compressAll chain data = (chain, data) := by
  rw [compressAll, if_pos h]

theorem compressAll_block (h : block.length = hash.blockLength) :
    hash.compressAll chain (block ++ rest) = hash.compressAll (hash.compress chain block) rest := by
  have hlong : ¬ (block ++ rest).length < hash.blockLength := by
    rw [List.length_append]
    omega
  rw [compressAll, if_neg hlong, List.take_left' h, List.drop_left' h]

/-- **One more piece** of data: it follows what was left over. -/
theorem compressAll_append (chain : σ) (data more : List α) :
    hash.compressAll chain (data ++ more) =
      hash.compressAll (hash.compressAll chain data).1
        ((hash.compressAll chain data).2 ++ more) := by
  have hpos := hash.blockLength_pos
  induction hlength : data.length using Nat.strong_induction_on generalizing data chain with
  | _ length ih =>
    by_cases hshort : data.length < hash.blockLength
    · rw [compressAll_of_lt hash hshort]
    · have hblock : (data.take hash.blockLength).length = hash.blockLength := by
        rw [List.length_take]
        omega
      have hdrop : (data.drop hash.blockLength).length < length := by
        rw [List.length_drop]
        omega
      have hsplit : data = data.take hash.blockLength ++ data.drop hash.blockLength :=
        (List.take_append_drop _ data).symm
      rw [hsplit, List.append_assoc, compressAll_block hash hblock, compressAll_block hash hblock]
      exact ih _ hdrop _ _ rfl

theorem compressAll_rest_length (chain : σ) (data : List α) :
    (hash.compressAll chain data).2.length = data.length % hash.blockLength := by
  have hpos := hash.blockLength_pos
  induction hlength : data.length using Nat.strong_induction_on generalizing data chain with
  | _ length ih =>
    by_cases hshort : data.length < hash.blockLength
    · rw [compressAll_of_lt hash hshort, ← hlength, Nat.mod_eq_of_lt hshort]
    · have hdrop : (data.drop hash.blockLength).length = length - hash.blockLength := by
        rw [List.length_drop, hlength]
      rw [compressAll, if_neg hshort, ih _ (by omega) _ _ hdrop]
      exact (Nat.mod_eq_sub_mod (by omega)).symm

/-- A chain value with the data that does not fill a block. -/
structure Stream (hash : BlockHash α σ) where
  chain : σ
  kept : List α
  kept_lt : kept.length < hash.blockLength

variable {hash}

/-- The blocks of the data kept and one more piece. -/
def Stream.absorb (stream : hash.Stream) (piece : List α) : hash.Stream where
  chain := (hash.compressAll stream.chain (stream.kept ++ piece)).1
  kept := (hash.compressAll stream.chain (stream.kept ++ piece)).2
  kept_lt := by
    rw [compressAll_rest_length]
    exact Nat.mod_lt _ hash.blockLength_pos

/-- A stream that has taken some data. -/
def Stream.After (stream : hash.Stream) (chain : σ) (data : List α) : Prop :=
  (stream.chain, stream.kept) = hash.compressAll chain data

theorem Stream.After.absorb {stream : hash.Stream} (h : stream.After chain data)
    (piece : List α) : (stream.absorb piece).After chain (data ++ piece) := by
  have hchain : stream.chain = (hash.compressAll chain data).1 := by rw [← h]
  have hkept : stream.kept = (hash.compressAll chain data).2 := by rw [← h]
  have hwhole := hash.compressAll_append chain data piece
  rw [← hchain, ← hkept] at hwhole
  exact hwhole.symm

end BlockHash

end Lib
