import SimpleServer.Generic.B64
import SimpleServer.Lib.Base64

/-!
# The buffer of base64

The buffer grows in parts of 64 KiB. Its size is a product of `int`, so it ends below 2^31.

* `b64BufRealloc_eq`: when there is room, and when the product overflows.
* `Writes.bind`: **writing one text after the other.**
-/

namespace SimpleServer.Generic.B64

open Lib

variable {buf : B64Buffer} {size : ℕ} {text more : Bytes} {run : Option B64Buffer}

/-- The most bytes that the buffer can have: the multiples of its parts that are an `int`. -/
def bufferLimit : ℕ := (2 ^ 15 - 1) * b64BufferSize

/-- A buffer that holds a text, in parts whose size is an `int`. -/
structure B64Buffer.Holds (buf : B64Buffer) (text : Bytes) : Prop where
  written : buf.written = text
  bufc_pos : 0 < buf.bufc
  bufc_lt : buf.bufc < 2 ^ 15
  room : text.length ≤ buf.bufc * b64BufferSize

theorem bufferRoom_eq {bufc : ℕ} (h : bufc < 2 ^ 15) :
    bufferRoom bufc = some (bufc * b64BufferSize) := by
  have hroom : bufc * b64BufferSize < 2 ^ 31 := by
    unfold b64BufferSize
    omega
  exact if_pos hroom

theorem growBufc_eq (size fuel : ℕ) {bufc : ℕ} (hbufc : bufc ≤ 2 ^ 15)
    (hfuel : 2 ^ 15 < bufc + fuel) :
    (size ≤ bufferLimit → bufc < 2 ^ 15 → ∃ bufc', growBufc size fuel bufc = some bufc' ∧
      bufc ≤ bufc' ∧ bufc' < 2 ^ 15 ∧ size ≤ bufc' * b64BufferSize) ∧
    (bufferLimit < size → growBufc size fuel bufc = none) := by
  induction fuel generalizing bufc with
  | zero => omega
  | succ fuel ih =>
    unfold growBufc
    rcases Nat.lt_or_ge bufc (2 ^ 15) with hlt | hge
    · rw [bufferRoom_eq hlt, Option.bind_eq_bind, Option.bind_some]
      by_cases hmore : size > bufc * b64BufferSize
      · rw [if_pos hmore]
        have hrest := @ih (bufc + 1) hlt (by omega)
        refine ⟨fun hsize _ => ?_, hrest.2⟩
        have hnext : bufc + 1 < 2 ^ 15 := by
          unfold bufferLimit b64BufferSize at *
          omega
        obtain ⟨bufc', hgrow, hle, hlt', hroom⟩ := hrest.1 hsize hnext
        exact ⟨bufc', hgrow, by omega, hlt', hroom⟩
      · rw [if_neg hmore]
        refine ⟨fun _ _ => ⟨bufc, rfl, le_rfl, hlt, not_lt.1 hmore⟩, fun hsize => ?_⟩
        unfold bufferLimit b64BufferSize at *
        omega
    · have hoverflow : bufferRoom bufc = none := by
        have hroom : ¬ bufc * b64BufferSize < 2 ^ 31 := by
          unfold b64BufferSize
          omega
        exact if_neg hroom
      rw [hoverflow]
      exact ⟨fun _ hlt => absurd hlt (by omega), fun _ => rfl⟩

/-- **Room for more**, exactly up to the limit. -/
theorem b64BufRealloc_eq (h : buf.Holds text) (hsize : text.length ≤ size) :
    (size ≤ bufferLimit → ∃ buf', b64BufRealloc buf size = some buf' ∧ buf'.Holds text ∧
      size ≤ buf'.bufc * b64BufferSize) ∧
    (bufferLimit < size → b64BufRealloc buf size = none) := by
  have hpos := h.bufc_pos
  have hlt := h.bufc_lt
  have hgrow := growBufc_eq size (2 ^ 15) hlt.le (by omega)
  unfold b64BufRealloc
  rw [bufferRoom_eq hlt, Option.bind_eq_bind, Option.bind_some]
  by_cases hmore : size > buf.bufc * b64BufferSize
  · rw [if_pos hmore]
    refine ⟨fun hroom => ?_, fun hlimit => by rw [hgrow.2 hlimit, Option.bind_none]⟩
    obtain ⟨bufc, hrun, hle, hlt', henough⟩ := hgrow.1 hroom hlt
    refine ⟨{ buf with bufc := bufc }, by rw [hrun]; rfl, ?_, henough⟩
    exact { written := h.written, bufc_pos := hpos.trans_le hle, bufc_lt := hlt',
            room := hsize.trans henough }
  · rw [if_neg hmore]
    refine ⟨fun _ => ⟨buf, rfl, h, not_lt.1 hmore⟩, fun hlimit => ?_⟩
    unfold bufferLimit b64BufferSize at *
    omega

theorem put_eq (h : buf.Holds text) (hroom : text.length < buf.bufc * b64BufferSize) (c : UInt8) :
    ∃ buf', put buf c = some buf' ∧ buf'.Holds (text ++ [c]) ∧ buf'.bufc = buf.bufc := by
  have hlt : buf.written.length < buf.bufc * b64BufferSize := by rw [h.written]; exact hroom
  refine ⟨{ buf with written := buf.written ++ [c] }, if_pos hlt, ?_, rfl⟩
  refine { written := by rw [h.written], bufc_pos := h.bufc_pos, bufc_lt := h.bufc_lt, room := ?_ }
  rw [List.length_append, List.length_singleton]
  exact hroom

theorem putAll_eq (h : buf.Holds text) (more : Bytes)
    (hroom : text.length + more.length ≤ buf.bufc * b64BufferSize) :
    ∃ buf', more.foldlM put buf = some buf' ∧ buf'.Holds (text ++ more) := by
  induction more generalizing buf text with
  | nil => exact ⟨buf, rfl, by simpa using h⟩
  | cons c more ih =>
    rw [List.length_cons] at hroom
    obtain ⟨buf', hput, hholds, hbufc⟩ := put_eq h (by omega) c
    obtain ⟨buf'', hrest, hholds'⟩ := ih hholds (by
      rw [List.length_append, List.length_singleton, hbufc]
      omega)
    refine ⟨buf'', ?_, ?_⟩
    · rw [List.foldlM_cons, hput]
      exact hrest
    · rw [List.append_cons]
      exact hholds'

/-! ## Writing -/

/-- A run writes a text: the buffer holds it, or the text is longer than a buffer can be. -/
def Writes (run : Option B64Buffer) (text : Bytes) : Prop :=
  (text.length ≤ bufferLimit → ∃ buf, run = some buf ∧ buf.Holds text) ∧
    (bufferLimit < text.length → run = none)

theorem Writes.of_holds (h : buf.Holds text) : Writes (some buf) text := by
  refine ⟨fun _ => ⟨buf, rfl, h⟩, fun hlimit => ?_⟩
  have hroom := h.room
  have hlt := h.bufc_lt
  unfold bufferLimit b64BufferSize at *
  omega

/-- **One text after the other.** -/
theorem Writes.bind (h : Writes run text) {next : B64Buffer → Option B64Buffer}
    (hnext : ∀ buf, buf.Holds text → Writes (next buf) (text ++ more)) :
    Writes (run.bind next) (text ++ more) := by
  rcases Nat.lt_or_ge bufferLimit text.length with hlong | hroom
  · have hlonger : bufferLimit < (text ++ more).length := by
      rw [List.length_append]
      omega
    rw [h.2 hlong, Option.bind_none]
    exact ⟨fun hroom => absurd hroom (by omega), fun _ => rfl⟩
  · obtain ⟨buf, hrun, hholds⟩ := h.1 hroom
    rw [hrun, Option.bind_some]
    exact hnext buf hholds

/-- Room for some bytes, and then the bytes. -/
theorem writes_realloc (h : buf.Holds text) (more : Bytes) {added : ℕ}
    (hadded : added = more.length) :
    Writes ((b64BufRealloc buf (buf.written.length + added)).bind fun buf => more.foldlM put buf)
      (text ++ more) := by
  have hlength : (text ++ more).length = text.length + more.length := List.length_append
  rw [h.written, hadded, ← hlength]
  have hrealloc := b64BufRealloc_eq h (show text.length ≤ (text ++ more).length by omega)
  refine ⟨fun hroom => ?_, fun hlimit => by rw [hrealloc.2 hlimit, Option.bind_none]⟩
  obtain ⟨buf', hrun, hholds, henough⟩ := hrealloc.1 hroom
  rw [hrun, Option.bind_some]
  exact putAll_eq hholds more (by omega)

theorem writes_append (h : buf.Holds text) (c : UInt8) : Writes (append buf c) (text ++ [c]) := by
  have hone := writes_realloc h [c] (show 1 = [c].length from rfl)
  simpa [append, List.foldlM_cons, List.foldlM_nil] using hone

theorem writes_appendAll (h : buf.Holds text) (more : Bytes) :
    Writes (more.foldlM append buf) (text ++ more) := by
  induction more generalizing buf text with
  | nil =>
    rw [List.append_nil]
    exact Writes.of_holds h
  | cons c more ih =>
    rw [List.foldlM_cons, List.append_cons]
    exact (writes_append h c).bind fun buf' hholds => ih hholds

theorem holds_malloc : b64BufMalloc.Holds [] where
  written := rfl
  bufc_pos := by decide
  bufc_lt := by decide
  room := Nat.zero_le _

end SimpleServer.Generic.B64
