import SimpleServer.Http2.Codec
import SimpleServer.Utils.ReaderSpec

/-!
# Where a frame ends

Each parser of a payload reads its parts one after the other. What it consumed is the sum of
these parts, and for all frame types but one this is the length in the header.

* `readPaddingLength_ok`, `readContent_ok`, `readPadding_ok`: what each part consumes.
* `parseHttp2FramePayload_ok`: a payload that is not a PUSH_PROMISE is consumed exactly.
* `PushPromiseAccepted`: the PUSH_PROMISE frames the parser takes; three bytes of each are
  left behind (`parseHttp2PushPromiseFrame_ok`, `parseHttp2PushPromiseFrame_accepted`).
* `parseHttp2Frame_boundary`: **the next frame is found behind this one** unless this one is
  such a PUSH_PROMISE.
-/

namespace SimpleServer.Http2

open SimpleServer.Utils Lib

variable {reader reader' : BufferedReader} {header : Http2RawHeader}

/-- The parser succeeded and consumed `n` bytes. -/
def Consumed (reader : BufferedReader) (n : ℕ) (reader' : BufferedReader) : Prop :=
  ∃ bytes, Reads reader bytes reader' ∧ bytes.length = n

theorem Consumed.trans {reader'' : BufferedReader} {m n k : ℕ} (h : Consumed reader m reader')
    (h' : Consumed reader' n reader'') (hk : m + n = k) : Consumed reader k reader'' := by
  obtain ⟨bytes, hreads, hlen⟩ := h
  obtain ⟨bytes', hreads', hlen'⟩ := h'
  refine ⟨bytes ++ bytes', hreads.trans hreads', ?_⟩
  rw [List.length_append]
  omega

theorem Consumed.zero (h : reader.Ready) : Consumed reader 0 reader := ⟨[], Reads.refl h, rfl⟩

theorem Consumed.ready {n : ℕ} (h : Consumed reader n reader') : reader'.Ready := by
  obtain ⟨bytes, hreads, -⟩ := h
  exact hreads.ready'

/-! ## The parts of a payload -/

theorem readAmount_ok {amount : ℕ} {message : String} {bytes : Bytes}
    (h : (readAmount amount message).run reader = .ok bytes reader') :
    Reads reader bytes reader' ∧ bytes.length = amount := by
  simp only [readAmount, EStateM.run] at h
  split at h
  · rename_i hread
    cases h
    exact getAmount_reads hread
  · cases h

theorem readAmount_append {amount : ℕ} {bytes rest : Bytes} (hready : reader.Ready)
    (hunread : reader.unread = bytes ++ rest) (hlen : bytes.length = amount) (message : String) :
    ∃ reader', (readAmount amount message).run reader = .ok bytes reader' ∧
      Reads reader bytes reader' := by
  obtain ⟨reader', hread, hready', hrest⟩ := bufferedReaderGetAmount_append hready hunread hlen
  refine ⟨reader', ?_, hready, hready', by rw [hunread, hrest]⟩
  simp only [readAmount, EStateM.run, hread]

/-- The number of bytes of the field with the length of the padding. -/
def paddingFieldSize (header : Http2RawHeader) : ℕ :=
  if hasFlag header.flags flagPadded then 1 else 0

/-- The length of the padding that a frame with this payload declares. -/
def declaredPadding (header : Http2RawHeader) (payload : Bytes) : ℕ :=
  if hasFlag header.flags flagPadded then (payload.getD 0 0).toNat else 0

/-- What is read of the padding length and what it says. -/
theorem readPaddingLength_ok (hready : reader.Ready) {pad len : ℕ}
    (h : (readPaddingLength header).run reader = .ok (pad, len) reader') :
    Consumed reader (paddingFieldSize header) reader' ∧
      pad = declaredPadding header reader.unread ∧
      paddingFieldSize header + len + pad = header.length := by
  unfold readPaddingLength at h
  unfold paddingFieldSize declaredPadding
  dsimp only at h
  split at h
  · rename_i hflag
    simp only [run_bind_eq_ok, run_failIf_eq_ok, run_pure_eq_ok, Prod.mk.injEq] at h
    obtain ⟨-, _, ⟨hlen, rfl⟩, bytes, reader₁, hread, -, _, ⟨hpad, rfl⟩, ⟨rfl, rfl⟩, rfl⟩ := h
    obtain ⟨hreads, hone⟩ := readAmount_ok hread
    rw [if_pos hflag, if_pos hflag]
    refine ⟨⟨bytes, hreads, hone⟩, ?_, by omega⟩
    rw [hreads.unread, List.getD_append _ _ _ _ (by omega)]
  · rename_i hflag
    simp only [run_pure_eq_ok, Prod.mk.injEq] at h
    obtain ⟨⟨rfl, rfl⟩, rfl⟩ := h
    rw [if_neg hflag, if_neg hflag]
    exact ⟨Consumed.zero hready, rfl, by omega⟩

theorem readPaddingLength_of_room (hready : reader.Ready)
    (hheld : header.length ≤ reader.unread.length)
    (hroom : paddingFieldSize header + declaredPadding header reader.unread < header.length) :
    ∃ reader', (readPaddingLength header).run reader =
        .ok (declaredPadding header reader.unread,
          header.length - paddingFieldSize header - declaredPadding header reader.unread) reader' ∧
      Consumed reader (paddingFieldSize header) reader' := by
  unfold readPaddingLength
  unfold paddingFieldSize declaredPadding at hroom ⊢
  by_cases hflag : hasFlag header.flags flagPadded
  · simp only [hflag, if_true] at hroom ⊢
    obtain ⟨b, rest, hunread⟩ : ∃ b rest, reader.unread = [b] ++ rest := by
      cases hu : reader.unread with
      | nil =>
        rw [hu, List.length_nil] at hheld
        omega
      | cons b rest => exact ⟨b, rest, rfl⟩
    obtain ⟨reader', hread, hreads⟩ := readAmount_append hready hunread (Eq.refl 1)
      "Failed to read enough data for the frame header"
    rw [run_failIf_bind (by omega), run_bind_of_ok hread]
    have hdeclared : reader.unread.getD 0 0 = b := by
      rw [hunread]
      rfl
    rw [hdeclared] at hroom ⊢
    rw [run_failIf_bind (by simp only [List.getD_cons_zero]; omega)]
    exact ⟨reader', rfl, [b], hreads, rfl⟩
  · simp only [hflag, if_false, Bool.false_eq_true] at hroom ⊢
    exact ⟨reader, rfl, Consumed.zero hready⟩

theorem readContent_ok {n : ℕ} {message : String} {content : Bytes}
    (h : (readContent n message).run reader = .ok content reader') :
    Consumed reader n reader' := by
  unfold readContent at h
  rw [run_bind_eq_ok] at h
  obtain ⟨raw, reader₁, hread, h⟩ := h
  have hconsumed : Consumed reader n reader₁ := ⟨raw, readAmount_ok hread⟩
  split at h
  · rw [run_pure_eq_ok] at h
    obtain ⟨-, rfl⟩ := h
    exact hconsumed
  · simp only [run_bind_eq_ok, run_failIf_eq_ok, run_pure_eq_ok] at h
    obtain ⟨-, _, ⟨-, rfl⟩, -, rfl⟩ := h
    exact hconsumed

theorem readContent_append {n : ℕ} {bytes rest : Bytes} (hready : reader.Ready)
    (hunread : reader.unread = bytes ++ rest) (hlen : bytes.length = n) (hfits : n < ptrdiffLimit)
    (message : String) :
    ∃ reader', (readContent n message).run reader = .ok bytes reader' ∧
      Reads reader bytes reader' := by
  obtain ⟨reader', hread, hreads⟩ := readAmount_append hready hunread hlen
    "Failed to read enough data for the frame data"
  refine ⟨reader', ?_, hreads⟩
  unfold readContent
  rw [run_bind_of_ok hread]
  by_cases hzero : bytes.length = 0
  · rw [if_pos hzero, List.eq_nil_of_length_eq_zero hzero]
    rfl
  · have hcopy : bytes.length < ptrdiffLimit := by omega
    rw [if_neg hzero, run_failIf_bind (by simp [sizedBufferAllocateFromReadonlyBuffer, hcopy]),
      allocateFromReadonlyBuffer_bytes hcopy]
    rfl

theorem readPadding_ok (hready : reader.Ready) {n : ℕ} {u : Unit}
    (h : (readPadding n).run reader = .ok u reader') :
    ∃ bytes, Reads reader bytes reader' ∧ bytes.length = n ∧ ∀ b ∈ bytes, b = 0 := by
  unfold readPadding at h
  split at h
  · simp only [run_bind_eq_ok, run_failIf_eq_ok] at h
    obtain ⟨bytes, reader₁, hread, hzero, rfl⟩ := h
    obtain ⟨hreads, hlen⟩ := readAmount_ok hread
    refine ⟨bytes, hreads, hlen, fun b hb => ?_⟩
    by_contra hne
    exact hzero ⟨b, hb, hne⟩
  · rename_i hn
    rw [run_pure_eq_ok] at h
    obtain ⟨-, rfl⟩ := h
    exact ⟨[], Reads.refl hready, (not_not.1 hn).symm, nofun⟩

theorem readPadding_append {bytes rest : Bytes} (hready : reader.Ready)
    (hunread : reader.unread = bytes ++ rest) (hzero : ∀ b ∈ bytes, b = 0) :
    ∃ reader', (readPadding bytes.length).run reader = .ok () reader' ∧
      Reads reader bytes reader' := by
  unfold readPadding
  by_cases hn : bytes.length = 0
  · rw [if_neg (not_not.2 hn)]
    have hnil : bytes = [] := List.eq_nil_of_length_eq_zero hn
    subst hnil
    exact ⟨reader, rfl, Reads.refl hready⟩
  · rw [if_pos hn]
    obtain ⟨reader', hread, hreads⟩ := readAmount_append hready hunread rfl
      "Failed to read enough data for the padding data"
    rw [run_bind_of_ok hread]
    refine ⟨reader', run_failIf_eq_ok.2 ⟨?_, rfl⟩, hreads⟩
    rintro ⟨b, hb, hne⟩
    exact hne (hzero b hb)

theorem Consumed.of_padding {n : ℕ} {u : Unit} (hready : reader.Ready)
    (h : (readPadding n).run reader = .ok u reader') : Consumed reader n reader' := by
  obtain ⟨bytes, hreads, hlen, -⟩ := readPadding_ok hready h
  exact ⟨bytes, hreads, hlen⟩

theorem readPriority_ok (hready : reader.Ready) {len left : ℕ}
    {priority : Option Http2FramePriority}
    (h : (readPriority header len).run reader = .ok (priority, left) reader') :
    ∃ n, Consumed reader n reader' ∧ n + left = len := by
  unfold readPriority at h
  split at h
  · simp only [run_bind_eq_ok, run_failIf_eq_ok, run_pure_eq_ok, Prod.mk.injEq] at h
    obtain ⟨-, _, ⟨hlen, rfl⟩, bytes, reader₁, hread, ⟨-, rfl⟩, rfl⟩ := h
    exact ⟨http2PriorityInfoSize, ⟨bytes, readAmount_ok hread⟩, by omega⟩
  · simp only [run_pure_eq_ok, Prod.mk.injEq] at h
    obtain ⟨⟨-, rfl⟩, rfl⟩ := h
    exact ⟨0, Consumed.zero hready, by omega⟩

theorem readDebugData_ok (hready : reader.Ready) {n : ℕ} {bytes : Bytes}
    (h : (readDebugData n).run reader = .ok bytes reader') : Consumed reader n reader' := by
  unfold readDebugData at h
  split at h
  · simp only [run_bind_eq_ok, run_failIf_eq_ok, run_pure_eq_ok] at h
    obtain ⟨raw, reader₁, hread, -, _, ⟨-, rfl⟩, -, rfl⟩ := h
    exact ⟨raw, readAmount_ok hread⟩
  · rename_i hzero
    rw [run_pure_eq_ok] at h
    obtain ⟨-, rfl⟩ := h
    rw [Nat.eq_zero_of_not_pos hzero]
    exact Consumed.zero hready

/-! ## The payloads -/

variable {frame : Http2Frame}

theorem parseHttp2DataFrame_ok (hready : reader.Ready)
    (h : (parseHttp2DataFrame header).run reader = .ok frame reader') :
    Consumed reader header.length reader' := by
  simp only [parseHttp2DataFrame, checkFlags, run_bind_eq_ok, run_failIf_eq_ok,
    run_pure_eq_ok] at h
  obtain ⟨-, _, ⟨-, rfl⟩, -, _, ⟨-, rfl⟩, ⟨pad, len⟩, reader₁, hpad, h⟩ := h
  obtain ⟨content, reader₂, hcontent, _, reader₃, hpadding, -, rfl⟩ := h
  obtain ⟨hn, -, hsum⟩ := readPaddingLength_ok hready hpad
  have hc := readContent_ok hcontent
  have hp := Consumed.of_padding hc.ready hpadding
  exact (hn.trans hc rfl).trans hp hsum

theorem parseHttp2HeadersFrame_ok (hready : reader.Ready)
    (h : (parseHttp2HeadersFrame header).run reader = .ok frame reader') :
    Consumed reader header.length reader' := by
  simp only [parseHttp2HeadersFrame, checkFlags, run_bind_eq_ok, run_failIf_eq_ok,
    run_pure_eq_ok] at h
  obtain ⟨-, _, ⟨-, rfl⟩, -, _, ⟨-, rfl⟩, ⟨pad, len⟩, reader₁, hpad, ⟨priority, left⟩, reader₂,
    hpriority, h⟩ := h
  obtain ⟨content, reader₃, hcontent, _, reader₄, hpadding, -, rfl⟩ := h
  obtain ⟨hn, -, hsum⟩ := readPaddingLength_ok hready hpad
  obtain ⟨m, hm, hleft⟩ := readPriority_ok hn.ready hpriority
  have hc := readContent_ok hcontent
  have hp := Consumed.of_padding hc.ready hpadding
  exact (hn.trans (hm.trans hc hleft) rfl).trans hp hsum

theorem parseHttp2PriorityFrame_ok
    (h : (parseHttp2PriorityFrame header).run reader = .ok frame reader') :
    Consumed reader header.length reader' := by
  simp only [parseHttp2PriorityFrame, checkFlags, run_bind_eq_ok, run_failIf_eq_ok,
    run_pure_eq_ok] at h
  obtain ⟨-, _, ⟨-, rfl⟩, -, _, ⟨-, rfl⟩, -, _, ⟨hlen, rfl⟩, bytes, reader₁, hread, -, rfl⟩ := h
  rw [not_not.1 hlen]
  exact ⟨bytes, readAmount_ok hread⟩

theorem parseHttp2RstStreamFrame_ok
    (h : (parseHttp2RstStreamFrame header).run reader = .ok frame reader') :
    Consumed reader header.length reader' := by
  simp only [parseHttp2RstStreamFrame, checkFlags, run_bind_eq_ok, run_failIf_eq_ok,
    run_pure_eq_ok] at h
  obtain ⟨-, _, ⟨-, rfl⟩, -, _, ⟨-, rfl⟩, -, _, ⟨hlen, rfl⟩, bytes, reader₁, hread, -, rfl⟩ := h
  rw [not_not.1 hlen]
  exact ⟨bytes, readAmount_ok hread⟩

theorem parseHttp2PingFrame_ok
    (h : (parseHttp2PingFrame header).run reader = .ok frame reader') :
    Consumed reader header.length reader' := by
  simp only [parseHttp2PingFrame, checkFlags, run_bind_eq_ok, run_failIf_eq_ok,
    run_pure_eq_ok] at h
  obtain ⟨-, _, ⟨-, rfl⟩, -, _, ⟨-, rfl⟩, -, _, ⟨hlen, rfl⟩, bytes, reader₁, hread, -, _,
    ⟨-, rfl⟩, -, rfl⟩ := h
  rw [not_not.1 hlen]
  exact ⟨bytes, readAmount_ok hread⟩

theorem parseHttp2GoawayFrame_ok
    (h : (parseHttp2GoawayFrame header).run reader = .ok frame reader') :
    Consumed reader header.length reader' := by
  simp only [parseHttp2GoawayFrame, checkFlags, run_bind_eq_ok, run_failIf_eq_ok,
    run_pure_eq_ok] at h
  obtain ⟨-, _, ⟨-, rfl⟩, -, _, ⟨-, rfl⟩, -, _, ⟨hlen, rfl⟩, bytes, reader₁, hread, debug,
    reader₂, hdebug, -, rfl⟩ := h
  have hbase : Consumed reader goawayBaseSize reader₁ := ⟨bytes, readAmount_ok hread⟩
  exact hbase.trans (readDebugData_ok hbase.ready hdebug) (by omega)

theorem parseHttp2WindowUpdateFrame_ok
    (h : (parseHttp2WindowUpdateFrame header).run reader = .ok frame reader') :
    Consumed reader header.length reader' := by
  simp only [parseHttp2WindowUpdateFrame, checkFlags, run_bind_eq_ok, run_failIf_eq_ok,
    run_pure_eq_ok] at h
  obtain ⟨-, _, ⟨-, rfl⟩, -, _, ⟨hlen, rfl⟩, bytes, reader₁, hread, -, rfl⟩ := h
  rw [not_not.1 hlen]
  exact ⟨bytes, readAmount_ok hread⟩

theorem parseHttp2ContinuationFrame_ok
    (h : (parseHttp2ContinuationFrame header).run reader = .ok frame reader') :
    Consumed reader header.length reader' := by
  simp only [parseHttp2ContinuationFrame, checkFlags, run_bind_eq_ok, run_failIf_eq_ok,
    run_pure_eq_ok] at h
  obtain ⟨-, _, ⟨-, rfl⟩, -, _, ⟨-, rfl⟩, content, reader₁, hcontent, -, rfl⟩ := h
  exact readContent_ok hcontent

theorem parseHttp2SettingsFrame_ok (hready : reader.Ready)
    (h : (parseHttp2SettingsFrame header).run reader = .ok frame reader') :
    Consumed reader header.length reader' := by
  unfold parseHttp2SettingsFrame checkFlags at h
  simp only [run_bind_eq_ok, run_failIf_eq_ok] at h
  obtain ⟨-, _, ⟨-, rfl⟩, -, _, ⟨-, rfl⟩, h⟩ := h
  split at h
  · simp only [run_bind_eq_ok, run_failIf_eq_ok, run_pure_eq_ok] at h
    obtain ⟨-, _, ⟨hlen, rfl⟩, -, rfl⟩ := h
    rw [not_not.1 hlen]
    exact Consumed.zero hready
  · simp only [run_bind_eq_ok, run_failIf_eq_ok] at h
    obtain ⟨-, _, ⟨-, rfl⟩, bytes, reader₁, hread, h⟩ := h
    have hsame : reader₁ = reader' := by
      split at h
      · cases h
      · exact (run_pure_eq_ok.1 h).2
    subst hsame
    unfold readSettingsData at hread
    split at hread
    · exact ⟨bytes, readAmount_ok hread⟩
    · rename_i hzero
      obtain ⟨-, rfl⟩ := run_pure_eq_ok.1 hread
      rw [Nat.eq_zero_of_not_pos hzero]
      exact Consumed.zero hready

/-! ## PUSH_PROMISE -/

variable {context : HTTP2Context} {behind : Bytes}

/-- The PUSH_PROMISE frames that are accepted. The parser looks for the padding three bytes
before its place, because it has only consumed one byte of the promised identifier. -/
structure PushPromiseAccepted (context : HTTP2Context) (header : Http2RawHeader)
    (payload : Bytes) : Prop where
  type : header.type = Http2FrameType.pushPromise.toByte
  identifier : header.streamIdentifier = 0
  flags : header.flags &&& Http2FrameType.pushPromise.flagsAllowed = header.flags
  enabled : context.settings.enablePush = true
  room : paddingFieldSize header + 4 + declaredPadding header payload ≤ header.length
  zero : ∀ b ∈ (payload.drop (header.length - declaredPadding header payload - 3)).take
    (declaredPadding header payload), b = 0

/-- A PUSH_PROMISE that is accepted leaves three of its bytes unread. -/
theorem parseHttp2PushPromiseFrame_ok (hready : reader.Ready)
    (htype : header.type = Http2FrameType.pushPromise.toByte)
    (h : (parseHttp2PushPromiseFrame context behind header).run reader = .ok frame reader') :
    PushPromiseAccepted context header reader.unread := by
  simp only [parseHttp2PushPromiseFrame, checkFlags, run_bind_eq_ok, run_failIf_eq_ok,
    run_pure_eq_ok] at h
  obtain ⟨-, _, ⟨hid, rfl⟩, -, _, ⟨hflags, rfl⟩, -, _, ⟨hpush, rfl⟩, ⟨pad, len⟩, reader₁, hpad,
    h⟩ := h
  obtain ⟨-, _, ⟨hroom, rfl⟩, byte, reader₂, hbyte, _, _, hget, h⟩ := h
  rw [EStateM.run_get] at hget
  cases hget
  obtain ⟨content, reader₃, hcontent, _, reader₄, hpadding, -, rfl⟩ := h
  obtain ⟨hn, hdeclared, hsum⟩ := readPaddingLength_ok hready hpad
  have hone : Consumed reader₁ 1 reader₂ := ⟨byte, readAmount_ok hbyte⟩
  have hc := readContent_ok hcontent
  obtain ⟨padding, hreads, hlen, hzero⟩ := readPadding_ok hc.ready hpadding
  dsimp only at hroom hc hlen
  -- what is consumed before the padding
  obtain ⟨before, hbefore, hcount⟩ :=
    (hn.trans (hone.trans hc rfl) (k := header.length - pad - 3) (by omega))
  refine ⟨htype, not_not.1 hid, not_not.1 hflags, by simpa using hpush, by omega, ?_⟩
  rw [← hdeclared, hbefore.unread, hreads.unread, ← hcount, List.drop_left, ← hlen,
    List.take_left]
  exact hzero

/-- The first `n` of the bytes that are left. -/
theorem exists_append_of_le (bytes : Bytes) (n : ℕ) (h : n ≤ bytes.length) :
    ∃ front rest, bytes = front ++ rest ∧ front.length = n :=
  ⟨bytes.take n, bytes.drop n, (List.take_append_drop n bytes).symm, List.length_take_of_le h⟩

theorem parseHttp2PushPromiseFrame_accepted (behind : Bytes) (hready : reader.Ready)
    (hheld : header.length ≤ reader.unread.length)
    (h : PushPromiseAccepted context header reader.unread) :
    ∃ frame reader', (parseHttp2PushPromiseFrame context behind header).run reader =
        .ok frame reader' ∧ Consumed reader (header.length - 3) reader' := by
  have hroom := h.room
  have hzero := h.zero
  have hfits : header.length < ptrdiffLimit := header.fits.trans (by decide)
  obtain ⟨reader₁, hpad, field, hfield, hfieldLen⟩ :=
    readPaddingLength_of_room hready hheld (by omega)
  generalize hpadLen : declaredPadding header reader.unread = pad at *
  -- the parts of the payload as the parser cuts it
  have hunread := hfield.unread
  have hlen : reader.unread.length = field.length + reader₁.unread.length := by
    rw [hunread, List.length_append]
  obtain ⟨byte, rest, hbyte, hbyteLen⟩ :=
    exists_append_of_le reader₁.unread 1 (by omega)
  rw [hbyte, List.length_append] at hlen
  obtain ⟨content, rest', rfl, hcontentLen⟩ := exists_append_of_le rest
    (header.length - paddingFieldSize header - pad - 4) (by omega)
  rw [List.length_append] at hlen
  obtain ⟨padding, rest'', rfl, hpaddingLen⟩ := exists_append_of_le rest' pad (by omega)
  have hzero' : ∀ b ∈ padding, b = 0 := by
    have hplace : (field ++ byte ++ content).length = header.length - pad - 3 := by
      simp only [List.length_append]
      omega
    rw [hunread, hbyte, ← List.append_assoc, ← List.append_assoc, ← hplace, List.drop_left,
      ← hpaddingLen, List.take_left] at hzero
    exact hzero
  obtain ⟨reader₂, hread₂, hreads₂⟩ := readAmount_append hfield.ready' hbyte hbyteLen
    "Failed to read enough data for the frame header"
  have hunread₂ : reader₂.unread = content ++ (padding ++ rest'') := by
    have h₂ := hreads₂.unread
    rw [hbyte] at h₂
    exact (List.append_cancel_left h₂).symm
  obtain ⟨reader₃, hread₃, hreads₃⟩ := readContent_append hreads₂.ready' hunread₂ hcontentLen
    (by omega) "Failed allocate headers block fragment buffer"
  have hunread₃ : reader₃.unread = padding ++ rest'' := by
    have h₃ := hreads₃.unread
    rw [hunread₂] at h₃
    exact (List.append_cancel_left h₃).symm
  obtain ⟨reader₄, hread₄, hreads₄⟩ := readPadding_append hreads₃.ready' hunread₃ hzero'
  rw [hpaddingLen] at hread₄
  refine ⟨.pushPromise ⟨deserializeIdentifier (memoryFromLastByte behind reader₂), content,
    header.streamIdentifier, hasFlag header.flags flagEndHeaders⟩, reader₄, ?_, _,
    ((hfield.trans hreads₂).trans hreads₃).trans hreads₄, ?_⟩
  · unfold parseHttp2PushPromiseFrame checkFlags
    rw [run_failIf_bind (not_not.2 h.identifier), run_failIf_bind (not_not.2 h.flags),
      run_failIf_bind (by simp [h.enabled]), run_bind_of_ok hpad]
    dsimp only
    rw [run_failIf_bind (by omega), run_bind_of_ok hread₂, run_bind_of_ok (EStateM.run_get _),
      run_bind_of_ok hread₃, run_bind_of_ok hread₄, EStateM.run_pure]
  · simp only [List.length_append]
    omega

/-! ## The frame -/

theorem parseHttp2FramePayload_ok (hready : reader.Ready)
    (htype : header.type ≠ Http2FrameType.pushPromise.toByte)
    (h : (parseHttp2FramePayload context behind header).run reader = .ok frame reader') :
    Consumed reader header.length reader' := by
  unfold parseHttp2FramePayload at h
  split at h
  · exact parseHttp2DataFrame_ok hready h
  · exact parseHttp2HeadersFrame_ok hready h
  · exact parseHttp2PriorityFrame_ok h
  · exact parseHttp2RstStreamFrame_ok h
  · exact parseHttp2SettingsFrame_ok hready h
  · rename_i hbyte
    exact absurd (Http2FrameType.eq_toByte_of_ofByte hbyte) htype
  · exact parseHttp2PingFrame_ok h
  · exact parseHttp2GoawayFrame_ok h
  · exact parseHttp2WindowUpdateFrame_ok h
  · exact parseHttp2ContinuationFrame_ok h
  · cases h

theorem parseHttp2FramePayload_pushPromise
    (htype : header.type = Http2FrameType.pushPromise.toByte) :
    parseHttp2FramePayload context behind header =
      parseHttp2PushPromiseFrame context behind header := by
  unfold parseHttp2FramePayload
  rw [htype, Http2FrameType.ofByte_toByte]

/-- **The next frame is found behind this one**, whatever its type, its flags and its length,
unless it is a PUSH_PROMISE that is accepted. -/
theorem parseHttp2Frame_boundary (context : HTTP2Context) (behind : Bytes)
    (reader : BufferedReader) (hready : reader.Ready)
    (hsize : (parseHttp2RawHeader (reader.unread.take http2HeaderSize)).length ≤
      context.settings.maxFrameSize)
    (hheld : http2HeaderSize + (parseHttp2RawHeader (reader.unread.take http2HeaderSize)).length ≤
      reader.unread.length) :
    (∀ frame reader', (parseHttp2Frame context behind).run reader = .ok frame reader' →
      reader'.Ready ∧ reader'.unread = reader.unread.drop
        (http2HeaderSize + (parseHttp2RawHeader (reader.unread.take http2HeaderSize)).length)) ↔
    ¬ PushPromiseAccepted context (parseHttp2RawHeader (reader.unread.take http2HeaderSize))
      (reader.unread.drop http2HeaderSize) := by
  obtain ⟨headerData, payload, hunread, hnine⟩ :=
    exists_append_of_le reader.unread http2HeaderSize (by omega)
  have htake : reader.unread.take http2HeaderSize = headerData := by
    rw [hunread, ← hnine, List.take_left]
  have hdrop : reader.unread.drop http2HeaderSize = payload := by
    rw [hunread, ← hnine, List.drop_left]
  obtain ⟨reader₁, hread, hreads⟩ := readAmount_append hready hunread hnine
    "Failed to read enough data for the frame header"
  rw [htake] at hsize hheld ⊢
  rw [hdrop]
  have hpayload : reader₁.unread = payload := by rw [hreads.drop, hnine, hdrop]
  have hrun : (parseHttp2Frame context behind).run reader =
      (parseHttp2FramePayload context behind (parseHttp2RawHeader headerData)).run reader₁ := by
    unfold parseHttp2Frame
    rw [run_bind_of_ok hread, run_failIf_bind (not_lt.2 hsize)]
  rw [hrun]
  generalize parseHttp2RawHeader headerData = header at *
  have hheader : Consumed reader http2HeaderSize reader₁ := ⟨headerData, hreads, hnine⟩
  have hrest : header.length ≤ reader₁.unread.length := by
    rw [hpayload, ← hdrop, List.length_drop]
    omega
  by_cases htype : header.type = Http2FrameType.pushPromise.toByte
  · rw [parseHttp2FramePayload_pushPromise htype]
    constructor
    · intro hall haccepted
      rw [← hpayload] at haccepted
      obtain ⟨frame, reader', hok, hconsumed⟩ :=
        parseHttp2PushPromiseFrame_accepted behind hreads.ready' hrest haccepted
      have hroom := haccepted.room
      obtain ⟨bytes, hall', hlen⟩ := hheader.trans hconsumed rfl
      have hbad := (hall frame reader' hok).2
      have hgood := hall'.drop
      rw [hbad] at hgood
      have hlength := congrArg List.length hgood
      rw [List.length_drop, List.length_drop] at hlength
      omega
    · intro hnot frame reader' hok
      refine absurd ?_ hnot
      rw [← hpayload]
      exact parseHttp2PushPromiseFrame_ok hreads.ready' htype hok
  · constructor
    · intro _ haccepted
      exact htype haccepted.type
    · intro _ frame reader' hok
      obtain ⟨bytes, hall, hlen⟩ :=
        hheader.trans (parseHttp2FramePayload_ok hreads.ready' htype hok) rfl
      exact ⟨hall.ready', by rw [hall.drop, hlen]⟩

/-- A DATA frame with one byte of padding, and the start of the next frame. -/
theorem parseHttp2Frame_boundary_data :
    (∀ frame reader', (parseHttp2Frame http2DefaultContext []).run
        (getBufferedReader [.bytes 0 [0, 3, 0, 9], .bytes 0 [0, 0, 1, 1, 0x61, 0, 0, 0, 8]]) =
          .ok frame reader' → reader'.Ready ∧ reader'.unread = [0, 0, 8]) ∧
    (∃ frame reader', (parseHttp2Frame http2DefaultContext []).run
        (getBufferedReader [.bytes 0 [0, 3, 0, 9], .bytes 0 [0, 0, 1, 1, 0x61, 0, 0, 0, 8]]) =
          .ok frame reader') :=
  ⟨(parseHttp2Frame_boundary http2DefaultContext []
    (getBufferedReader [.bytes 0 [0, 3, 0, 9], .bytes 0 [0, 0, 1, 1, 0x61, 0, 0, 0, 8]])
    ⟨rfl, Nat.zero_le _⟩ (by decide) (by decide)).2
      (fun h => absurd h.type (by decide)), _, _, rfl⟩

/-- A PUSH_PROMISE with nothing but the identifier: three bytes are left for the next frame. -/
theorem parseHttp2Frame_boundary_pushPromise :
    ¬ ∀ frame reader', (parseHttp2Frame http2DefaultContext []).run
        (getBufferedReader [.bytes 0 [0, 4, 5, 4, 0, 0, 0, 0, 0, 0, 0, 2]]) = .ok frame reader' →
      reader'.unread = [0, 0, 4, 5, 4, 0, 0, 0, 0, 0, 0, 0, 2].drop
        (http2HeaderSize + (parseHttp2RawHeader [0, 0, 4, 5, 4, 0, 0, 0, 0]).length) := by
  intro h
  have hleft := h _ _ rfl
  exact absurd hleft (by decide)

end SimpleServer.Http2
