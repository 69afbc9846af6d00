import SimpleServer.Proof.FrameCodec

/-!
# Padding of DATA and HEADERS frames

The payload of a padded frame starts with the length of the padding; in a HEADERS frame the
priority may follow. Then comes what the frame carries, and at its end the padding. Both parsers
refuse a padding that leaves nothing else behind its length field, which the format allows.

* `paddedBody`: what the two parsers have in common.
* `paddedBody_iff`: what it accepts, and with which content.
* `padding_iff`: **when padding is handled as the format wants it.**
-/

namespace SimpleServer.Http2

open SimpleServer.Utils Lib

variable {reader reader' : BufferedReader} {header : Http2RawHeader} {payload rest : Bytes}
  {frame : Http2Frame} {build : Option Http2FramePriority → Bytes → Http2Frame} {message : String}

/-! ## The parts of a padded payload -/

/-- The number of bytes of the priority. -/
def prioritySize (header : Http2RawHeader) : ℕ :=
  if hasFlag header.flags flagPriority then http2PriorityInfoSize else 0

/-- The number of bytes of the fields before what the frame carries. -/
def fieldsSize (header : Http2RawHeader) : ℕ := 1 + prioritySize header

/-- The first byte of a padded payload. -/
def padLength (payload : Bytes) : ℕ := (payload.getD 0 0).toNat

/-- The padding leaves room for the fields, and is zero. -/
def PaddingFits (header : Http2RawHeader) (payload : Bytes) : Prop :=
  fieldsSize header + padLength payload ≤ header.length ∧
    ∀ b ∈ payload.drop (header.length - padLength payload), b = 0

/-- The bytes between the fields and the padding. -/
def between (header : Http2RawHeader) (payload : Bytes) : Bytes :=
  (payload.drop (fieldsSize header)).take (header.length - fieldsSize header - padLength payload)

/-- The priority behind the length of the padding. -/
def priorityIn (header : Http2RawHeader) (payload : Bytes) : Option Http2FramePriority :=
  if hasFlag header.flags flagPriority then
    some (getHttp2PriorityInfoFromRawData ((payload.drop 1).take http2PriorityInfoSize))
  else none

/-- The length of the padding is followed by nothing but padding. -/
def FillsRest (header : Http2RawHeader) (payload : Bytes) : Prop :=
  hasFlag header.flags flagPriority = false ∧ padLength payload = header.length - 1 ∧
    ∀ b ∈ payload.drop 1, b = 0

/-- Both parsers behind their first checks. -/
def paddedBody (header : Http2RawHeader) (message : String)
    (build : Option Http2FramePriority → Bytes → Http2Frame) : FrameParser Http2Frame := do
  let (paddingLength, payloadLength) ← readPaddingLength header
  let (priorityOpt, payloadLength) ← readPriority header payloadLength
  let content ← readContent payloadLength message
  readPadding paddingLength
  return build priorityOpt content

/-- A DATA frame of its content. -/
def paddedDataFrame (header : Http2RawHeader) (_ : Option Http2FramePriority) (content : Bytes) :
    Http2Frame :=
  .data ⟨content, hasFlag header.flags flagEndStream, header.streamIdentifier⟩

/-- A HEADERS frame of its priority and its block fragment. -/
def paddedHeadersFrame (header : Http2RawHeader) (priorityOpt : Option Http2FramePriority)
    (blockFragment : Bytes) : Http2Frame :=
  .headers ⟨priorityOpt, blockFragment, header.streamIdentifier,
    hasFlag header.flags flagEndStream, hasFlag header.flags flagEndHeaders⟩

theorem hasFlag_priority_of_data
    (h : header.flags &&& Http2FrameType.data.flagsAllowed = header.flags) :
    hasFlag header.flags flagPriority = false := by
  have hnone : Http2FrameType.data.flagsAllowed &&& flagPriority = 0 := by decide
  unfold hasFlag
  rw [← h, UInt8.and_assoc, hnone, UInt8.and_zero]
  rfl

theorem parseHttp2DataFrame_eq (hid : header.streamIdentifier ≠ 0)
    (hflags : header.flags &&& Http2FrameType.data.flagsAllowed = header.flags) :
    (parseHttp2DataFrame header).run reader =
      (paddedBody header "Failed allocate frame data content buffer" (paddedDataFrame header)).run
        reader := by
  have hnone := hasFlag_priority_of_data hflags
  unfold parseHttp2DataFrame paddedBody
  rw [run_failIf_bind hid, run_checkFlags_bind hflags, EStateM.run_bind, EStateM.run_bind]
  cases (readPaddingLength header).run reader with
  | error e reader' => rfl
  | ok lengths reader' =>
    dsimp only
    rw [run_bind_of_ok (readPriority_of_not hnone lengths.2)]
    rfl

theorem parseHttp2HeadersFrame_eq (hid : header.streamIdentifier ≠ 0)
    (hflags : header.flags &&& Http2FrameType.headers.flagsAllowed = header.flags) :
    (parseHttp2HeadersFrame header).run reader =
      (paddedBody header "Failed allocate headers block fragment buffer"
        (paddedHeadersFrame header)).run
        reader := by
  unfold parseHttp2HeadersFrame paddedBody
  rw [run_failIf_bind hid, run_checkFlags_bind hflags]
  rfl

/-! ## What each part reads -/

/-- The length of the padding is less than what is behind it. -/
theorem readPaddingLength_padded (hpadded : hasFlag header.flags flagPadded = true) {pad len : ℕ}
    (h : (readPaddingLength header).run reader = .ok (pad, len) reader') :
    pad + 1 < header.length ∧ len = header.length - 1 - pad ∧
      ∃ b, Reads reader [b] reader' ∧ b.toNat = pad := by
  unfold readPaddingLength at h
  dsimp only at h
  rw [if_pos hpadded] at h
  simp only [run_bind_eq_ok, run_failIf_eq_ok, run_pure_eq_ok, Prod.mk.injEq] at h
  obtain ⟨-, _, ⟨hlen, rfl⟩, bytes, reader₁, hread, -, _, ⟨hpad, rfl⟩, ⟨rfl, rfl⟩, rfl⟩ := h
  obtain ⟨hreads, hone⟩ := readAmount_ok hread
  obtain ⟨b, rfl⟩ := List.length_eq_one_iff.1 hone
  exact ⟨by omega, rfl, b, hreads, rfl⟩

theorem readContent_reads {n : ℕ} {content : Bytes} (hfits : n < ptrdiffLimit)
    (h : (readContent n message).run reader = .ok content reader') :
    Reads reader content reader' ∧ content.length = n := by
  obtain ⟨bytes, hreads, hlength⟩ := readContent_ok h
  obtain ⟨reader'', hread, hreads'⟩ :=
    readContent_append hreads.ready hreads.unread hlength hfits message
  rw [h] at hread
  obtain ⟨rfl, rfl⟩ := EStateM.Result.ok.inj hread
  exact ⟨hreads, hlength⟩

theorem readPriority_reads (hready : reader.Ready) {len left : ℕ}
    {priority : Option Http2FramePriority}
    (h : (readPriority header len).run reader = .ok (priority, left) reader') :
    ∃ fields, Reads reader fields reader' ∧ fields.length = prioritySize header ∧
      prioritySize header ≤ len ∧ left = len - prioritySize header ∧
      priority = if hasFlag header.flags flagPriority then
        some (getHttp2PriorityInfoFromRawData fields) else none := by
  unfold readPriority at h
  unfold prioritySize
  by_cases hflag : hasFlag header.flags flagPriority
  · simp only [hflag, if_true, run_bind_eq_ok, run_failIf_eq_ok, run_pure_eq_ok,
      Prod.mk.injEq] at h ⊢
    obtain ⟨-, _, ⟨hlen, rfl⟩, bytes, reader₁, hread, ⟨rfl, rfl⟩, rfl⟩ := h
    obtain ⟨hreads, hlength⟩ := readAmount_ok hread
    exact ⟨bytes, hreads, hlength, by omega, rfl, rfl⟩
  · simp only [hflag, if_false, run_pure_eq_ok, Prod.mk.injEq, Bool.false_eq_true] at h ⊢
    obtain ⟨⟨rfl, rfl⟩, rfl⟩ := h
    exact ⟨[], Reads.refl hready, rfl, by omega, rfl, rfl⟩

theorem readPriority_append {fields : Bytes} (hready : reader.Ready)
    (hunread : reader.unread = fields ++ rest) (hlength : fields.length = prioritySize header)
    {len : ℕ} (hroom : prioritySize header ≤ len) :
    ∃ reader', (readPriority header len).run reader =
        .ok (if hasFlag header.flags flagPriority then
          some (getHttp2PriorityInfoFromRawData fields) else none, len - prioritySize header)
          reader' ∧
      Reads reader fields reader' := by
  unfold readPriority
  unfold prioritySize at hlength hroom ⊢
  by_cases hflag : hasFlag header.flags flagPriority
  · simp only [hflag, if_true] at hlength hroom ⊢
    obtain ⟨reader', hread, hreads⟩ := readAmount_append hready hunread hlength
      "Failed to read enough data for the frame header"
    rw [run_failIf_bind (by omega), run_bind_of_ok hread]
    exact ⟨reader', rfl, hreads⟩
  · simp only [hflag, if_false, Bool.false_eq_true] at hlength ⊢
    obtain rfl : fields = [] := List.eq_nil_of_length_eq_zero hlength
    exact ⟨reader, rfl, Reads.refl hready⟩

/-! ## What is accepted -/

/-- A payload in its parts. -/
theorem parts_of_payload {b : UInt8} {fields content padding : Bytes}
    (hpayload : payload = b :: (fields ++ (content ++ padding)))
    (hlength : payload.length = header.length) (hfields : fields.length = prioritySize header)
    (hpadding : padding.length = b.toNat) :
    padLength payload = b.toNat ∧ payload.drop (header.length - padLength payload) = padding ∧
      between header payload = content ∧ payload.drop 1 = fields ++ (content ++ padding) ∧
      fieldsSize header + padLength payload ≤ header.length := by
  have hpad : padLength payload = b.toNat := by
    rw [hpayload]
    rfl
  have hsum : header.length = 1 + (fields.length + (content.length + padding.length)) := by
    rw [← hlength, hpayload, List.length_cons, List.length_append, List.length_append]
    omega
  have hdrop : payload.drop (fieldsSize header) = content ++ padding := by
    have hsize : fieldsSize header = fields.length + 1 := by
      unfold fieldsSize
      omega
    rw [hpayload, hsize, List.drop_succ_cons, List.drop_left]
  refine ⟨hpad, ?_, ?_, ?_, ?_⟩
  · have hsplit : header.length - padLength payload = fieldsSize header + content.length := by
      unfold fieldsSize
      omega
    rw [hsplit, ← List.drop_drop, hdrop, List.drop_left]
  · unfold between
    rw [hdrop]
    apply List.take_left'
    unfold fieldsSize
    omega
  · rw [hpayload]
    rfl
  · unfold fieldsSize
    omega

/-- A payload with room for its fields and its padding has these parts. -/
theorem exists_parts (hlength : payload.length = header.length)
    (hroom : fieldsSize header + padLength payload ≤ header.length) :
    ∃ b fields content padding, payload = b :: (fields ++ (content ++ padding)) ∧
      fields.length = prioritySize header ∧ padding.length = b.toNat := by
  unfold fieldsSize at hroom
  cases hpayload : payload with
  | nil =>
    rw [hpayload, List.length_nil] at hlength
    omega
  | cons b behind =>
    have hpad : padLength payload = b.toNat := by
      rw [hpayload]
      rfl
    rw [hpayload, List.length_cons] at hlength
    refine ⟨b, behind.take (prioritySize header),
      (behind.drop (prioritySize header)).take (behind.length - prioritySize header - b.toNat),
      (behind.drop (prioritySize header)).drop (behind.length - prioritySize header - b.toNat),
      ?_, ?_, ?_⟩
    · rw [List.take_append_drop, List.take_append_drop]
    · rw [List.length_take]
      omega
    · rw [List.length_drop, List.length_drop]
      omega

theorem priorityIn_eq {fields behind : Bytes} (hdrop : payload.drop 1 = fields ++ behind)
    (hfields : fields.length = prioritySize header) :
    priorityIn header payload = if hasFlag header.flags flagPriority then
      some (getHttp2PriorityInfoFromRawData fields) else none := by
  unfold priorityIn
  unfold prioritySize at hfields
  split_ifs at hfields ⊢ with hflag
  · rw [hdrop, List.take_left' hfields]
  · rfl

/-- **What both parsers accept**, and the frame they make of it. -/
theorem paddedBody_iff (hready : reader.Ready) (hpadded : hasFlag header.flags flagPadded = true)
    (hunread : reader.unread = payload ++ rest) (hlength : payload.length = header.length) :
    (∃ reader', (paddedBody header message build).run reader = .ok frame reader') ↔
      padLength payload + 1 < header.length ∧ PaddingFits header payload ∧
        frame = build (priorityIn header payload) (between header payload) := by
  have hlarge : header.length < ptrdiffLimit := header.fits.trans (by decide)
  constructor
  · rintro ⟨reader', h⟩
    simp only [paddedBody, run_bind_eq_ok, run_pure_eq_ok] at h
    obtain ⟨⟨pad, len⟩, reader₁, hpad, ⟨priority, left⟩, reader₂, hpriority, content, reader₃,
      hcontent, _, reader₄, hpadding, rfl, rfl⟩ := h
    obtain ⟨hroom, rfl, b, hreads₁, rfl⟩ := readPaddingLength_padded hpadded hpad
    obtain ⟨fields, hreads₂, hfields, hle, rfl, rfl⟩ :=
      readPriority_reads hreads₁.ready' hpriority
    obtain ⟨hreads₃, hsize⟩ := readContent_reads (by omega) hcontent
    obtain ⟨padding, hreads₄, hpadLength, hzero⟩ := readPadding_ok hreads₃.ready' hpadding
    -- the parts that were read are the payload
    have hall := hreads₁.trans (hreads₂.trans (hreads₃.trans hreads₄))
    have hparts : payload = b :: (fields ++ (content ++ padding)) := by
      have hwhole := hunread.symm.trans hall.unread
      refine (List.append_inj hwhole ?_).1
      simp only [List.length_append, List.length_singleton]
      omega
    obtain ⟨hb, hdrop, hbetween, hbehind, hfits⟩ :=
      parts_of_payload hparts hlength hfields hpadLength
    refine ⟨by omega, ⟨hfits, ?_⟩, ?_⟩
    · rw [hdrop]
      exact hzero
    · rw [hbetween, priorityIn_eq hbehind hfields]
  · rintro ⟨hroom, ⟨hfits, hzero⟩, rfl⟩
    obtain ⟨b, fields, content, padding, hparts, hfields, hpadLength⟩ :=
      exists_parts hlength hfits
    obtain ⟨hb, hdrop, hbetween, hbehind, -⟩ :=
      parts_of_payload hparts hlength hfields hpadLength
    rw [hdrop] at hzero
    rw [hbetween, priorityIn_eq hbehind hfields]
    have hsum : header.length = 1 + (fields.length + (content.length + padding.length)) := by
      rw [← hlength, hparts, List.length_cons, List.length_append, List.length_append]
      omega
    have hdeclared : declaredPadding header reader.unread = b.toNat := by
      unfold declaredPadding
      rw [if_pos hpadded, hunread, hparts]
      rfl
    have hfield : paddingFieldSize header = 1 := if_pos hpadded
    have hheld : header.length ≤ reader.unread.length := by
      rw [hunread, List.length_append]
      omega
    have hroom :
        paddingFieldSize header + declaredPadding header reader.unread < header.length := by
      rw [hdeclared, hfield]
      omega
    obtain ⟨reader₁, hpad, bytes, hreads₁, hone⟩ := readPaddingLength_of_room
      hready hheld hroom
    have hbytes : bytes = [b] := by
      have htake := hreads₁.take
      rw [hone, hfield, hunread, hparts] at htake
      exact htake
    subst hbytes
    rw [hdeclared, hfield] at hpad
    have hunread₁ : reader₁.unread = fields ++ (content ++ (padding ++ rest)) := by
      rw [hreads₁.drop, hunread, hparts]
      simp
    obtain ⟨reader₂, hpriority, hreads₂⟩ := readPriority_append hreads₁.ready' hunread₁ hfields
      (by omega : prioritySize header ≤ header.length - 1 - b.toNat)
    have hunread₂ : reader₂.unread = content ++ (padding ++ rest) := by
      rw [hreads₂.drop, hunread₁, List.drop_left]
    obtain ⟨reader₃, hcontent, hreads₃⟩ := readContent_append hreads₂.ready' hunread₂
      (by omega : content.length = header.length - 1 - b.toNat - prioritySize header) (by omega)
      message
    have hunread₃ : reader₃.unread = padding ++ rest := by
      rw [hreads₃.drop, hunread₂, List.drop_left]
    obtain ⟨reader₄, hpadding, -⟩ := readPadding_append hreads₃.ready' hunread₃ hzero
    rw [hpadLength] at hpadding
    refine ⟨reader₄, ?_⟩
    unfold paddedBody
    rw [run_bind_of_ok hpad, run_bind_of_ok hpriority, run_bind_of_ok hcontent,
      run_bind_of_ok hpadding]
    rfl

/-- A frame is accepted exactly when the padding fits and is zero, and carries what is between
the fields and the padding. -/
structure PaddingRight (parse : FrameParser Http2Frame)
    (build : Option Http2FramePriority → Bytes → Http2Frame) (header : Http2RawHeader)
    (reader : BufferedReader) (payload : Bytes) : Prop where
  accepted_iff : (∃ frame reader', parse.run reader = .ok frame reader') ↔
    PaddingFits header payload
  content : ∀ frame reader', parse.run reader = .ok frame reader' →
    frame = build (priorityIn header payload) (between header payload)

/-- Only a padding that fills the rest of the frame is refused wrongly. -/
theorem paddingRight_iff {parse : FrameParser Http2Frame}
    (hsame : parse.run reader = (paddedBody header message build).run reader)
    (hready : reader.Ready) (hpadded : hasFlag header.flags flagPadded = true)
    (hunread : reader.unread = payload ++ rest) (hlength : payload.length = header.length)
    (hpos : 1 ≤ header.length) :
    PaddingRight parse build header reader payload ↔ ¬ FillsRest header payload := by
  have hbody : ∀ frame, (∃ reader', parse.run reader = .ok frame reader') ↔
      padLength payload + 1 < header.length ∧ PaddingFits header payload ∧
        frame = build (priorityIn header payload) (between header payload) := by
    intro frame
    rw [hsame]
    exact paddedBody_iff hready hpadded hunread hlength
  constructor
  · intro hright hfills
    obtain ⟨hnone, hpad, hzero⟩ := hfills
    have hsize : fieldsSize header = 1 := by
      simp [fieldsSize, prioritySize, hnone]
    have hfits : PaddingFits header payload := by
      refine ⟨by omega, ?_⟩
      have hdrop : header.length - padLength payload = 1 := by omega
      rwa [hdrop]
    obtain ⟨frame, haccepted⟩ := hright.accepted_iff.2 hfits
    have hroom := ((hbody frame).1 haccepted).1
    omega
  · intro hnot
    refine ⟨⟨?_, ?_⟩, ?_⟩
    · rintro ⟨frame, haccepted⟩
      exact ((hbody frame).1 haccepted).2.1
    · intro hfits
      refine ⟨_, (hbody _).2 ⟨?_, hfits, rfl⟩⟩
      by_contra hfull
      obtain ⟨hsize, hzero⟩ := hfits
      unfold fieldsSize prioritySize at hsize
      apply hnot
      refine ⟨?_, by omega, ?_⟩
      · by_contra hflag
        rw [if_pos (by simpa using hflag)] at hsize
        have hfive : http2PriorityInfoSize = 5 := rfl
        omega
      · have hdrop : header.length - padLength payload = 1 := by omega
        rwa [hdrop] at hzero
    · intro frame reader' haccepted
      exact ((hbody frame).1 ⟨reader', haccepted⟩).2.2

/-- **When padding is handled as the format wants it**, in DATA and in HEADERS frames. -/
theorem padding_iff (hready : reader.Ready) (hid : header.streamIdentifier ≠ 0)
    (hpadded : hasFlag header.flags flagPadded = true) (hpos : 1 ≤ header.length)
    (hunread : reader.unread = payload ++ rest) (hlength : payload.length = header.length) :
    (header.flags &&& Http2FrameType.data.flagsAllowed = header.flags →
      (PaddingRight (parseHttp2DataFrame header) (paddedDataFrame header) header reader payload ↔
        ¬ FillsRest header payload)) ∧
    (header.flags &&& Http2FrameType.headers.flagsAllowed = header.flags →
      (PaddingRight (parseHttp2HeadersFrame header) (paddedHeadersFrame header) header reader
          payload ↔
        ¬ FillsRest header payload)) := by
  refine ⟨?_, ?_⟩
  · intro hflags
    exact paddingRight_iff (parseHttp2DataFrame_eq hid hflags) hready hpadded hunread hlength hpos
  · intro hflags
    exact paddingRight_iff (parseHttp2HeadersFrame_eq hid hflags) hready hpadded hunread hlength
      hpos

/-- The header of a padded frame on the stream 1. -/
def paddedHeader (type : Http2FrameType) (length : ℕ) : Http2RawHeader :=
  .of length type.toByte flagPadded 1

/-- One byte of padding behind one byte of content. -/
theorem padding_iff_oneByte :
    PaddingRight (parseHttp2DataFrame (paddedHeader .data 3))
      (paddedDataFrame (paddedHeader .data 3))
      (paddedHeader .data 3) (getBufferedReader [.bytes 1 [0x41, 0]]) [1, 0x41, 0] := by
  have hiff := @padding_iff (getBufferedReader [.bytes 1 [0x41, 0]]) (paddedHeader .data 3)
    [1, 0x41, 0] [] ⟨rfl, Nat.le_refl 0⟩ (by decide) (by decide) (by decide) rfl (by decide)
  refine (hiff.1 (by decide)).2 ?_
  rintro ⟨-, hpad, -⟩
  exact absurd hpad (by decide)

/-- A frame without content and without padding behind the length of the padding. -/
theorem emptyContent_refused :
    ¬ PaddingRight (parseHttp2DataFrame (paddedHeader .data 1))
      (paddedDataFrame (paddedHeader .data 1))
      (paddedHeader .data 1) (getBufferedReader [.bytes 0 []]) [0] := by
  intro hright
  have hpadding : ([0] : Bytes).drop ((paddedHeader .data 1).length - padLength [0]) = [] := by
    decide
  obtain ⟨frame, haccepted⟩ := hright.accepted_iff.2 ⟨by decide, by simp [hpadding]⟩
  have hunread : (getBufferedReader [.bytes 0 []]).unread = [0] ++ [] := by
    simp [BufferedReader.unread, getBufferedReader, arriving]
  rw [parseHttp2DataFrame_eq (by decide) (by decide),
    paddedBody_iff ⟨rfl, Nat.le_refl 0⟩ (by decide) hunread (by decide)] at haccepted
  exact absurd haccepted.1 (by decide)

end SimpleServer.Http2
