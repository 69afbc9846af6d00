import SimpleServer.Lib.Bits
import SimpleServer.Proof.B64Buffer

/-!
# Base64 without OpenSSL, both ways

* `b64Encode_eq`: what the encoder writes, up to the limit of its buffer.
* `b64DecodeEx_eq`: what the decoder makes of any text, up to the limit of its index.
* `base64Buffer_roundTrip`: **what comes back.**
* `base64Buffer_anyText`: the decoder is not strict.
-/

namespace SimpleServer.Generic.B64

open Lib

variable {buf : B64Buffer} {text src : Bytes} {tmp : Fin 3 → UInt8}

/-! ## The table -/

theorem tableLetter_eq (value : UInt8) (h : value.toNat < 64) :
    tableLetter value = some (Base64.letter value.toNat) := by
  have hall : ∀ n < 64, b64Table[n]? = some (Base64.letter n) := by
    decide +kernel
  exact hall _ h

/-- The four letters of three bytes. -/
def groupLetters (a b c : UInt8) : Bytes :=
  [Base64.letter (a.toNat / 4), Base64.letter (a.toNat % 4 * 16 + b.toNat / 16),
    Base64.letter (b.toNat % 16 * 4 + c.toNat / 64), Base64.letter (c.toNat % 64)]

theorem encodeTmp_toNat (tmp : Fin 3 → UInt8) :
    (encodeTmp tmp).map UInt8.toNat =
      [(tmp 0).toNat / 4, (tmp 0).toNat % 4 * 16 + (tmp 1).toNat / 16,
        (tmp 1).toNat % 16 * 4 + (tmp 2).toNat / 64, (tmp 2).toNat % 64] := by
  have hfirst : ∀ a : UInt8, ((a &&& 0xFC) >>> 2).toNat = a.toNat / 4 :=
    forall_byte (by decide +kernel)
  have hhigh : ∀ a : UInt8, ((a &&& 0x03) <<< 4).toNat = a.toNat % 4 * 16 :=
    forall_byte (by decide +kernel)
  have hhigh' : ∀ a : UInt8, ((a &&& 0x0F) <<< 2).toNat = a.toNat % 16 * 4 :=
    forall_byte (by decide +kernel)
  have hlow : ∀ a : UInt8, ((a &&& 0xF0) >>> 4).toNat = a.toNat / 16 :=
    forall_byte (by decide +kernel)
  have hlow' : ∀ a : UInt8, ((a &&& 0xC0) >>> 6).toNat = a.toNat / 64 :=
    forall_byte (by decide +kernel)
  have hlast : ∀ a : UInt8, (a &&& 0x3F).toNat = a.toNat % 64 :=
    forall_byte (by decide +kernel)
  have h1 := (tmp 1).toNat_lt
  have h2 := (tmp 2).toNat_lt
  have hsecond : ((tmp 0).toNat % 4 * 16 + (tmp 1).toNat / 16) % 2 ^ 8 =
      (tmp 0).toNat % 4 * 16 + (tmp 1).toNat / 16 := Nat.mod_eq_of_lt (by omega)
  have hthird : ((tmp 1).toNat % 16 * 4 + (tmp 2).toNat / 64) % 2 ^ 8 =
      (tmp 1).toNat % 16 * 4 + (tmp 2).toNat / 64 := Nat.mod_eq_of_lt (by omega)
  simp only [encodeTmp, List.map_cons, List.map_nil, UInt8.toNat_add, hfirst, hhigh, hhigh', hlow,
    hlow', hlast, hsecond, hthird]

theorem mapM_tableLetter (values : Bytes) (h : ∀ value ∈ values, value.toNat < 64) :
    values.mapM tableLetter = some (values.map fun value => Base64.letter value.toNat) := by
  induction values with
  | nil => rfl
  | cons value values ih =>
    rw [List.mapM_cons, tableLetter_eq value (h value (List.mem_cons_self ..)),
      ih fun value' hmem => h value' (List.mem_cons_of_mem _ hmem)]
    rfl

/-- The letters of some of the four parts. -/
theorem mapM_encodeTmp (tmp : Fin 3 → UInt8) (n : ℕ) :
    ((encodeTmp tmp).take n).mapM tableLetter =
      some ((groupLetters (tmp 0) (tmp 1) (tmp 2)).take n) := by
  have hvalues := encodeTmp_toNat tmp
  have h0 := (tmp 0).toNat_lt
  have h1 := (tmp 1).toNat_lt
  have h2 := (tmp 2).toNat_lt
  have hsmall : ∀ value ∈ encodeTmp tmp, value.toNat < 64 := by
    intro value hmem
    have hmap := List.mem_map_of_mem (f := UInt8.toNat) hmem
    rw [hvalues] at hmap
    simp only [List.mem_cons, List.not_mem_nil, or_false] at hmap
    omega
  have hletters : (encodeTmp tmp).map (fun value => Base64.letter value.toNat) =
      groupLetters (tmp 0) (tmp 1) (tmp 2) := by
    have hcompose : (encodeTmp tmp).map (fun value => Base64.letter value.toNat) =
        ((encodeTmp tmp).map UInt8.toNat).map Base64.letter := by
      rw [List.map_map]
      rfl
    rw [hcompose, hvalues]
    rfl
  rw [mapM_tableLetter _ fun value hmem => hsmall value (List.mem_of_mem_take hmem), List.map_take,
    hletters]

/-! ## Encoding -/

/-- An encoder that has written a text and kept some bytes. -/
structure Encoder.Holds (encoder : Encoder) (text pending : Bytes) : Prop where
  encbuf : encoder.encbuf.Holds text
  i : encoder.i.val = pending.length
  tmp : ∀ k : Fin 3, ∀ h : k.val < pending.length, encoder.tmp k = pending[k.val]

theorem encode_group (a b c : UInt8) (rest : Bytes) :
    Base64.encode (a :: b :: c :: rest) = groupLetters a b c ++ Base64.encode rest := rfl

/-- The last group: the bytes that are missing count as zeros. -/
theorem encodeRemainder_eq {encoder : Encoder} (hi : encoder.i.val > 0) {a b c : UInt8}
    (ha : (if encoder.i ≤ 0 then 0 else encoder.tmp 0) = a)
    (hb : (if encoder.i ≤ 1 then 0 else encoder.tmp 1) = b)
    (hc : (if encoder.i ≤ 2 then 0 else encoder.tmp 2) = c) :
    encodeRemainder encoder =
      (((groupLetters a b c).take (encoder.i.val + 1)).foldlM append encoder.encbuf).bind
        fun encbuf => (List.replicate (3 - encoder.i.val) 0x3D).foldlM append encbuf := by
  have hletters := mapM_encodeTmp (fun j => if encoder.i ≤ j then 0 else encoder.tmp j)
    (encoder.i.val + 1)
  simp only [ha, hb, hc] at hletters
  unfold encodeRemainder
  rw [if_pos hi]
  simp only [hletters, Option.bind_eq_bind, Option.bind_some]

/-- The last group and the zero byte. -/
theorem writes_remainder {encoder : Encoder} {pending : Bytes} (h : encoder.Holds text pending) :
    Writes ((encodeRemainder encoder).bind fun encbuf => append encbuf 0)
      (text ++ Base64.encode pending ++ [0]) := by
  have hlt := encoder.i.isLt
  have hi := h.i
  have htmp := h.tmp
  refine Writes.bind ?_ fun buf hholds => writes_append hholds 0
  rcases pending with _ | ⟨a, _ | ⟨b, _ | ⟨c, rest⟩⟩⟩
  · have hnone : ¬ encoder.i.val > 0 := by
      rw [hi]
      exact Nat.not_lt_zero 0
    rw [encodeRemainder, if_neg hnone, Base64.encode, List.append_nil]
    exact Writes.of_holds h.encbuf
  · have hone : encoder.i = 1 := Fin.ext hi
    have hletters : Base64.encode [a] = (groupLetters a 0 0).take 2 ++ List.replicate 2 0x3D := rfl
    rw [encodeRemainder_eq (a := a) (b := 0) (c := 0) (by rw [hi]; exact Nat.one_pos)
      (by rw [hone]; exact htmp 0 Nat.one_pos) (by rw [hone]; rfl) (by rw [hone]; rfl), hi,
      hletters, ← List.append_assoc]
    exact (writes_appendAll h.encbuf _).bind fun buf hholds => writes_appendAll hholds _
  · have htwo : encoder.i = 2 := Fin.ext hi
    have hletters : Base64.encode [a, b] =
        (groupLetters a b 0).take 3 ++ List.replicate 1 0x3D := rfl
    rw [encodeRemainder_eq (a := a) (b := b) (c := 0) (by rw [hi]; exact Nat.two_pos)
      (by rw [htwo]; exact htmp 0 Nat.two_pos) (by rw [htwo]; exact htmp 1 Nat.one_lt_two)
      (by rw [htwo]; rfl), hi, hletters, ← List.append_assoc]
    exact (writes_appendAll h.encbuf _).bind fun buf hholds => writes_appendAll hholds _
  · simp only [List.length_cons] at hi
    omega

/-- A byte that does not fill a group. -/
theorem encodeByte_pending {encoder : Encoder} {pending : Bytes} (h : encoder.Holds text pending)
    (hshort : pending.length + 1 ≠ 3) (c : UInt8) :
    ∃ encoder', encodeByte encoder c = some encoder' ∧ encoder'.Holds text (pending ++ [c]) := by
  have hi := h.i
  have hmore : ¬ encoder.i.val + 1 = 3 := by omega
  refine ⟨_, dif_neg hmore, { encbuf := h.encbuf, i := ?_, tmp := fun k hk => ?_ }⟩
  · rw [List.length_append, List.length_singleton]
    exact congrArg Nat.succ hi
  · rw [List.length_append, List.length_singleton] at hk
    by_cases hlast : k = encoder.i
    · have hend : k.val = pending.length := by rw [hlast, hi]
      have hvalue : (pending ++ [c])[k.val] = c := by
        simp only [hend, List.getElem_concat_length]
      rw [hvalue, hlast]
      exact Function.update_self ..
    · have hbefore : k.val < pending.length := by
        have hne : k.val ≠ encoder.i.val := fun heq => hlast (Fin.ext heq)
        omega
      rw [List.getElem_append_left hbefore, ← h.tmp k hbefore]
      exact Function.update_of_ne hlast ..

/-- A byte that fills a group. -/
theorem encodeByte_group {encoder : Encoder} {a b : UInt8} (h : encoder.Holds text [a, b])
    (c : UInt8) {next : Encoder → Option B64Buffer} {more : Bytes}
    (hnext : ∀ encoder', encoder'.Holds (text ++ groupLetters a b c) [] →
      Writes (next encoder') (text ++ groupLetters a b c ++ more)) :
    Writes ((encodeByte encoder c).bind next) (text ++ groupLetters a b c ++ more) := by
  have hfull : encoder.i.val + 1 = 3 := by rw [h.i]; rfl
  have htwo : encoder.i = 2 := Fin.ext h.i
  have h0 : encoder.tmp 0 = a := h.tmp 0 Nat.two_pos
  have h1 : encoder.tmp 1 = b := h.tmp 1 Nat.one_lt_two
  have hletters := mapM_encodeTmp (Function.update encoder.tmp 2 c) 4
  have htake : (encodeTmp (Function.update encoder.tmp 2 c)).take 4 =
      encodeTmp (Function.update encoder.tmp 2 c) := rfl
  have hgroup : (groupLetters a b c).take 4 = groupLetters a b c := rfl
  have htmp0 : Function.update encoder.tmp 2 c 0 = a := h0
  have htmp1 : Function.update encoder.tmp 2 c 1 = b := h1
  have htmp2 : Function.update encoder.tmp 2 c 2 = c := Function.update_self ..
  rw [htake, htmp0, htmp1, htmp2, hgroup] at hletters
  have hbyte : (encodeByte encoder c).bind next =
      ((b64BufRealloc encoder.encbuf (encoder.encbuf.written.length + 4)).bind fun encbuf =>
        (groupLetters a b c).foldlM put encbuf).bind fun encbuf =>
          next { i := 0, tmp := Function.update encoder.tmp 2 c, encbuf := encbuf } := by
    unfold encodeByte
    rw [dif_pos hfull]
    simp only [htwo, hletters, Option.bind_eq_bind, Option.bind_some, Option.pure_def,
      Option.bind_assoc]
  rw [hbyte]
  refine (writes_realloc h.encbuf _ rfl).bind fun buf hholds => hnext _ ?_
  exact { encbuf := hholds, i := rfl, tmp := fun k hk => absurd hk (Nat.not_lt_zero _) }

/-- **The loop**: bytes after bytes that are kept. -/
theorem writes_encode {encoder : Encoder} {pending : Bytes} (h : encoder.Holds text pending)
    (src : Bytes) :
    Writes ((src.foldlM encodeByte encoder).bind fun encoder =>
      (encodeRemainder encoder).bind fun encbuf => append encbuf 0)
      (text ++ Base64.encode (pending ++ src) ++ [0]) := by
  induction src generalizing encoder text pending with
  | nil =>
    rw [List.append_nil]
    exact writes_remainder h
  | cons c src ih =>
    have hlt := encoder.i.isLt
    have hi := h.i
    rw [List.foldlM_cons, Option.bind_eq_bind, Option.bind_assoc]
    rcases Nat.lt_or_ge (pending.length + 1) 3 with hshort | hfull
    · obtain ⟨encoder', hbyte, hholds⟩ := encodeByte_pending h (by omega) c
      rw [hbyte, Option.bind_some, List.append_cons pending c src]
      exact ih hholds
    · obtain ⟨a, b, rfl⟩ := List.length_eq_two.1 (show pending.length = 2 by omega)
      have hencode : text ++ Base64.encode ([a, b] ++ c :: src) ++ [0] =
          text ++ groupLetters a b c ++ (Base64.encode src ++ [0]) := by
        have hgroup := encode_group a b c src
        have hcons : [a, b] ++ c :: src = a :: b :: c :: src := rfl
        rw [hcons, hgroup]
        simp only [List.append_assoc]
      rw [hencode]
      refine encodeByte_group h c fun encoder' hholds => ?_
      have hrest := ih hholds
      rw [List.append_assoc, List.nil_append] at hrest
      exact hrest

/-- **What the encoder writes**: the letters and a zero byte, up to the limit of its buffer. -/
theorem b64Encode_eq (uninit : Fin 3 → UInt8) (src : Bytes) :
    b64Encode uninit src =
      if (Base64.encode src).length < bufferLimit then some (Base64.encode src ++ [0])
      else none := by
  have hstart : Encoder.Holds { i := 0, tmp := uninit, encbuf := b64BufMalloc } [] [] :=
    { encbuf := holds_malloc, i := rfl, tmp := fun k hk => absurd hk (Nat.not_lt_zero _) }
  have hwrites := writes_encode hstart src
  have hlength : (Base64.encode src ++ [0]).length = (Base64.encode src).length + 1 :=
    List.length_append
  rw [List.nil_append, List.nil_append] at hwrites
  have hrun : b64Encode uninit src =
      (((src.foldlM encodeByte { i := 0, tmp := uninit, encbuf := b64BufMalloc }).bind
        fun encoder => (encodeRemainder encoder).bind fun encbuf => append encbuf 0).map
          fun encbuf => encbuf.written) := by
    unfold b64Encode
    simp only [Option.bind_eq_bind, Option.pure_def, Option.map_eq_bind, Option.bind_assoc]
    rfl
  rw [hrun]
  split_ifs with hroom
  · obtain ⟨buf, hbuf, hholds⟩ := hwrites.1 (by omega)
    rw [hbuf, Option.map_some, hholds.written]
  · rw [hwrites.2 (by omega), Option.map_none]

/-! ## Decoding -/

/-- What `isalnum` and the two signs admit are the letters. -/
theorem isLetter_eq (c : UInt8) :
    Base64.isLetter c = (c ≠ 0x3D && (isalnum c || c == 0x2B || c == 0x2F)) := by
  have hall : ∀ c : UInt8,
      Base64.isLetter c = (c ≠ 0x3D && (isalnum c || c == 0x2B || c == 0x2F)) :=
    forall_byte (by decide +kernel)
  exact hall c

theorem translate_eq {c : UInt8} {value : ℕ} (h : Base64.letterValue c = some value) :
    translate c = UInt8.ofNat value ∧ value < 64 := by
  have hall : ∀ c : UInt8, (Base64.letterValue c).all fun value =>
      translate c == UInt8.ofNat value && decide (value < 64) := forall_byte (by decide +kernel)
  have hc := hall c
  rw [h, Option.all_some, Bool.and_eq_true, beq_iff_eq, decide_eq_true_eq] at hc
  exact hc

/-- The three bytes of four numbers of six bits. -/
theorem decodeTmp_eq {a b c d : ℕ} (ha : a < 64) (hb : b < 64) (hc : c < 64)
    {tmp : Fin 4 → UInt8} (h0 : tmp 0 = UInt8.ofNat a) (h1 : tmp 1 = UInt8.ofNat b)
    (h2 : tmp 2 = UInt8.ofNat c) (h3 : tmp 3 = UInt8.ofNat d) :
    decodeTmp tmp = [UInt8.ofNat (a * 4 + b / 16), UInt8.ofNat (b % 16 * 16 + c / 4),
      UInt8.ofNat (c % 4 * 64 + d)] := by
  have hfirst : ∀ a < 64, UInt8.ofNat a <<< 2 = UInt8.ofNat (a * 4) := by decide +kernel
  have hsecond : ∀ b < 64, (UInt8.ofNat b &&& 0x30) >>> 4 = UInt8.ofNat (b / 16) := by
    decide +kernel
  have hthird : ∀ b < 64, (UInt8.ofNat b &&& 0x0F) <<< 4 = UInt8.ofNat (b % 16 * 16) := by
    decide +kernel
  have hfourth : ∀ c < 64, (UInt8.ofNat c &&& 0x3C) >>> 2 = UInt8.ofNat (c / 4) := by
    decide +kernel
  have hfifth : ∀ c < 64, (UInt8.ofNat c &&& 0x03) <<< 6 = UInt8.ofNat (c % 4 * 64) := by
    decide +kernel
  rw [decodeTmp, h0, h1, h2, h3, hfirst a ha, hsecond b hb, hthird b hb, hfourth c hc, hfifth c hc,
    ← UInt8.ofNat_add, ← UInt8.ofNat_add, ← UInt8.ofNat_add]

/-- A decoder that has written a text and kept the numbers of some letters. -/
structure Decoder.Holds (decoder : Decoder) (text : Bytes) (pending : List ℕ) (letters : ℕ) :
    Prop where
  decbuf : decoder.decbuf.Holds text
  i : decoder.i.val = pending.length
  j : decoder.j = letters
  j_lt : letters < 2 ^ 31
  length : 4 * text.length + 3 * pending.length = 3 * letters
  tmp : ∀ k : Fin 4, ∀ h : k.val < pending.length,
    Base64.letterValue (decoder.tmp k) = some pending[k.val]

variable {decoder : Decoder} {pending : List ℕ} {j value : ℕ} {c : UInt8}

/-- Three bytes for every four letters stay below the limit of the buffer. -/
theorem Decoder.Holds.room (h : decoder.Holds text pending j) (more : ℕ) (hmore : more ≤ 3) :
    text.length + more ≤ bufferLimit := by
  have hlength := h.length
  have hj := h.j_lt
  unfold bufferLimit b64BufferSize
  omega

theorem decodeByte_pending (h : decoder.Holds text pending j)
    (hc : Base64.letterValue c = some value) (hj : j + 1 < 2 ^ 31)
    (hshort : pending.length + 1 < 4) :
    ∃ decoder', decodeByte decoder c = some decoder' ∧
      decoder'.Holds text (pending ++ [value]) (j + 1) := by
  have hi := h.i
  have hindex : ¬ 2 ^ 31 ≤ decoder.j + 1 := by
    rw [h.j]
    omega
  have hmore : ¬ decoder.i.val + 1 = 4 := by omega
  have hbyte : decodeByte decoder c = some
      { i := ⟨decoder.i.val + 1, by omega⟩, j := decoder.j + 1,
        tmp := Function.update decoder.tmp decoder.i c, decbuf := decoder.decbuf } := by
    unfold decodeByte
    rw [if_neg hindex]
    exact dif_neg hmore
  have hlength : 4 * text.length + 3 * (pending ++ [value]).length = 3 * (j + 1) := by
    rw [List.length_append, List.length_singleton, Nat.mul_add, ← Nat.add_assoc, h.length]
    rfl
  refine ⟨_, hbyte, { decbuf := h.decbuf, i := ?_, j := congrArg Nat.succ h.j, j_lt := hj,
                      length := hlength, tmp := fun k hk => ?_ }⟩
  · rw [List.length_append, List.length_singleton]
    exact congrArg Nat.succ hi
  · rw [List.length_append, List.length_singleton] at hk
    by_cases hlast : k = decoder.i
    · have hend : k.val = pending.length := by rw [hlast, hi]
      have hvalue : (pending ++ [value])[k.val] = value := by
        simp only [hend, List.getElem_concat_length]
      have hupdate : Function.update decoder.tmp decoder.i c k = c := by
        rw [hlast, Function.update_self]
      rw [hvalue]
      exact (congrArg Base64.letterValue hupdate).trans hc
    · have hbefore : k.val < pending.length := by
        have hne : k.val ≠ decoder.i.val := fun heq => hlast (Fin.ext heq)
        omega
      rw [List.getElem_append_left hbefore, ← h.tmp k hbefore]
      exact congrArg Base64.letterValue (Function.update_of_ne hlast ..)

theorem decodeByte_group {v0 v1 v2 : ℕ} (h : decoder.Holds text [v0, v1, v2] j)
    (hc : Base64.letterValue c = some value) (hj : j + 1 < 2 ^ 31) :
    ∃ decoder', decodeByte decoder c = some decoder' ∧
      decoder'.Holds (text ++ Base64.ofSixBits [v0, v1, v2, value]) [] (j + 1) := by
  have hthree : decoder.i = 3 := Fin.ext h.i
  have hindex : ¬ 2 ^ 31 ≤ decoder.j + 1 := by
    rw [h.j]
    omega
  have hfull : decoder.i.val + 1 = 4 := by rw [h.i]; rfl
  obtain ⟨h0, hv0⟩ := translate_eq (h.tmp 0 (by decide : 0 < 3))
  obtain ⟨h1, hv1⟩ := translate_eq (h.tmp 1 (by decide : 1 < 3))
  obtain ⟨h2, hv2⟩ := translate_eq (h.tmp 2 (by decide : 2 < 3))
  obtain ⟨h3, -⟩ := translate_eq hc
  have hupdate : Function.update decoder.tmp 3 c 3 = c := Function.update_self ..
  have hbytes : (decodeTmp fun k => translate (Function.update decoder.tmp 3 c k)) =
      Base64.ofSixBits [v0, v1, v2, value] :=
    decodeTmp_eq hv0 hv1 hv2 h0 h1 h2 ((congrArg translate hupdate).trans h3)
  obtain ⟨buf, hrun, hholds⟩ := (writes_realloc h.decbuf (Base64.ofSixBits [v0, v1, v2, value])
    (show 3 = _ from rfl)).1 (by
      rw [List.length_append]
      exact h.room 3 le_rfl)
  refine ⟨{ i := 0, j := decoder.j + 1,
            tmp := fun k => translate (Function.update decoder.tmp 3 c k), decbuf := buf }, ?_, ?_⟩
  · unfold decodeByte
    rw [if_neg hindex, dif_pos hfull]
    rw [← hbytes] at hrun
    have hnext := congrArg (Option.map fun decbuf => (⟨0, decoder.j + 1,
      fun k => translate (Function.update decoder.tmp 3 c k), decbuf⟩ : Decoder)) hrun
    simp only [Option.map_eq_bind, Option.bind_assoc] at hnext
    simp only [hthree, Option.bind_eq_bind, Option.pure_def]
    exact hnext
  · refine { decbuf := hholds, i := rfl, j := congrArg Nat.succ h.j, j_lt := hj, length := ?_,
             tmp := fun k hk => absurd hk (Nat.not_lt_zero _) }
    have hlength := h.length
    have hthree : (Base64.ofSixBits [v0, v1, v2, value]).length = 3 := rfl
    rw [List.length_append, hthree]
    simp only [List.length_cons, List.length_nil] at hlength ⊢
    omega

/-- **The loop**, up to the first byte that is not a letter. -/
theorem decodeLoop_eq (h : decoder.Holds text pending j) (src : Bytes) :
    (j + (Base64.leadingLetters src).length < 2 ^ 31 →
      ∃ decoder' text' pending' j', decodeLoop src decoder = some decoder' ∧
        decoder'.Holds text' pending' j' ∧
        text' ++ Base64.ofSixBits pending' = text ++ Base64.ofSixBits
          (pending ++ (Base64.leadingLetters src).filterMap Base64.letterValue)) ∧
    (2 ^ 31 ≤ j + (Base64.leadingLetters src).length → decodeLoop src decoder = none) := by
  induction src generalizing decoder text pending j with
  | nil =>
    have hj := h.j_lt
    refine ⟨fun _ => ⟨decoder, text, pending, j, rfl, h, ?_⟩, fun hlong => absurd hlong (by simpa)⟩
    rw [Base64.leadingLetters, List.takeWhile_nil, List.filterMap_nil, List.append_nil]
  | cons c src ih =>
    have hj := h.j_lt
    have hletter := isLetter_eq c
    by_cases hc : Base64.isLetter c = true
    · obtain ⟨value, hvalue⟩ := Option.isSome_iff_exists.1 hc
      rw [hc, eq_comm, Bool.and_eq_true, decide_eq_true_eq] at hletter
      have hloop : decodeLoop (c :: src) decoder =
          (decodeByte decoder c).bind fun decoder => decodeLoop src decoder := by
        rw [decodeLoop, if_neg hletter.1, hletter.2]
        rfl
      rw [hloop, Base64.leadingLetters_cons hvalue, List.length_cons, List.filterMap_cons, hvalue]
      rcases Nat.lt_or_ge (j + 1) (2 ^ 31) with hindex | hindex
      · have hlt := decoder.i.isLt
        have hi := h.i
        rcases Nat.lt_or_ge (pending.length + 1) 4 with hshort | hfull
        · obtain ⟨decoder', hbyte, hholds⟩ := decodeByte_pending h hvalue hindex hshort
          have hrest := ih hholds
          rw [List.append_assoc, List.singleton_append] at hrest
          rw [hbyte, Option.bind_some]
          exact ⟨fun hroom => hrest.1 (by omega), fun hlong => hrest.2 (by omega)⟩
        · obtain ⟨v0, v1, v2, rfl⟩ := List.length_eq_three.1 (show pending.length = 3 by omega)
          obtain ⟨decoder', hbyte, hholds⟩ := decodeByte_group h hvalue hindex
          have hrest := ih hholds
          rw [hbyte, Option.bind_some]
          refine ⟨fun hroom => ?_, fun hlong => hrest.2 (by omega)⟩
          obtain ⟨decoder'', text', pending', j', hrun, hholds', htext⟩ := hrest.1 (by omega)
          refine ⟨decoder'', text', pending', j', hrun, hholds', ?_⟩
          rw [htext, List.append_assoc]
          rfl
      · have hnone : decodeByte decoder c = none := by
          unfold decodeByte
          rw [if_pos (by rw [h.j]; exact hindex)]
        rw [hnone]
        exact ⟨fun hroom => absurd hroom (by omega), fun _ => rfl⟩
    · have hstop : decodeLoop (c :: src) decoder = some decoder := by
        rw [Bool.eq_false_of_not_eq_true hc] at hletter
        rw [decodeLoop]
        by_cases hpad : c = 0x3D
        · rw [if_pos hpad]
        · have hother : (isalnum c || c == 0x2B || c == 0x2F) = false := by
            simpa [hpad] using hletter.symm
          rw [if_neg hpad, hother]
          rfl
      have hnone : Base64.leadingLetters (c :: src) = [] :=
        List.takeWhile_cons_of_neg hc
      rw [hnone, hstop, List.filterMap_nil, List.append_nil]
      exact ⟨fun _ => ⟨decoder, text, pending, j, rfl, h, rfl⟩,
        fun hlong => absurd hlong (by simpa)⟩

/-- The last group: the letters that are missing count as zeros. -/
theorem decodeRemainder_eq (h : decoder.Holds text pending j) :
    ∃ decbuf, decodeRemainder decoder = some decbuf ∧
      decbuf.Holds (text ++ Base64.ofSixBits pending) := by
  have hlt := decoder.i.isLt
  have hi := h.i
  have htmp := h.tmp
  have hzero : translate 0 = UInt8.ofNat 0 := by decide +kernel
  have hwrites : ∀ bytes : Bytes, decoder.i.val > 0 → decoder.i.val - 1 = bytes.length →
      (decodeTmp fun k => translate (if decoder.i ≤ k then 0 else decoder.tmp k)).take
        (decoder.i.val - 1) = bytes →
      ∃ decbuf, decodeRemainder decoder = some decbuf ∧ decbuf.Holds (text ++ bytes) := by
    intro bytes hpos hlength hbytes
    have hwrite := writes_realloc h.decbuf _ hlength
    have hroom : (text ++ bytes).length ≤ bufferLimit := by
      rw [List.length_append]
      exact h.room _ (by omega)
    obtain ⟨decbuf, hrun, hholds⟩ := hwrite.1 hroom
    refine ⟨decbuf, ?_, hholds⟩
    unfold decodeRemainder
    rw [if_pos hpos]
    simp only [hbytes, Option.bind_eq_bind]
    exact hrun
  rcases pending with _ | ⟨v0, _ | ⟨v1, _ | ⟨v2, _ | ⟨v3, rest⟩⟩⟩⟩
  · have hnone : ¬ decoder.i.val > 0 := by
      rw [hi]
      exact Nat.not_lt_zero 0
    refine ⟨decoder.decbuf, if_neg hnone, ?_⟩
    have hempty : text ++ Base64.ofSixBits [] = text := List.append_nil _
    rw [hempty]
    exact h.decbuf
  · refine hwrites [] (by rw [hi]; exact Nat.one_pos) (by rw [hi]; rfl) ?_
    rw [hi]
    rfl
  · have htwo : decoder.i = 2 := Fin.ext hi
    obtain ⟨h0, hv0⟩ := translate_eq (htmp 0 Nat.two_pos)
    obtain ⟨h1, hv1⟩ := translate_eq (htmp 1 Nat.one_lt_two)
    refine hwrites _ (by rw [hi]; exact Nat.two_pos) (by rw [hi]; rfl) ?_
    rw [decodeTmp_eq hv0 hv1 (show 0 < 64 by decide) (d := 0) (by rw [htwo]; exact h0)
      (by rw [htwo]; exact h1) (by rw [htwo]; exact hzero) (by rw [htwo]; exact hzero), hi]
    rfl
  · have hthree : decoder.i = 3 := Fin.ext hi
    obtain ⟨h0, hv0⟩ := translate_eq (htmp 0 (by decide : 0 < 3))
    obtain ⟨h1, hv1⟩ := translate_eq (htmp 1 (by decide : 1 < 3))
    obtain ⟨h2, hv2⟩ := translate_eq (htmp 2 (by decide : 2 < 3))
    refine hwrites _ (by rw [hi]; exact Nat.succ_pos 2) (by rw [hi]; rfl) ?_
    rw [decodeTmp_eq hv0 hv1 hv2 (d := 0) (by rw [hthree]; exact h0)
      (by rw [hthree]; exact h1) (by rw [hthree]; exact h2) (by rw [hthree]; exact hzero), hi]
    rfl
  · simp only [List.length_cons] at hi
    omega

/-- **What the decoder makes of any text**: the letters at its start, up to the limit of an
`int`. -/
theorem b64DecodeEx_eq (uninit : Fin 4 → UInt8) (src : Bytes) :
    b64DecodeEx uninit src =
      if (Base64.leadingLetters src).length < 2 ^ 31 then
        some (Base64.decodeLetters src ++ [0], (Base64.decodeLetters src).length)
      else none := by
  have hstart : Decoder.Holds { i := 0, j := 0, tmp := uninit, decbuf := b64BufMalloc } [] [] 0 :=
    { decbuf := holds_malloc, i := rfl, j := rfl, j_lt := by decide, length := rfl,
      tmp := fun k hk => absurd hk (Nat.not_lt_zero _) }
  have hloop := decodeLoop_eq hstart src
  unfold b64DecodeEx
  split_ifs with hletters
  · obtain ⟨decoder, text, pending, j, hrun, hholds, htext⟩ := hloop.1 (by omega)
    obtain ⟨decbuf, hrest, hbuf⟩ := decodeRemainder_eq hholds
    have hdecode : text ++ Base64.ofSixBits pending = Base64.decodeLetters src := htext
    rw [hdecode] at hbuf
    have hroom : (Base64.decodeLetters src ++ [0]).length ≤ bufferLimit := by
      rw [List.length_append, Base64.length_decodeLetters, List.length_singleton]
      unfold bufferLimit b64BufferSize
      omega
    obtain ⟨decbuf', hend, hbuf'⟩ := (writes_append hbuf 0).1 hroom
    simp only [hrun, hrest, hend, Option.bind_eq_bind, Option.bind_some, Option.pure_def,
      hbuf.written, hbuf'.written]
  · rw [hloop.2 (by omega)]
    rfl

/-! ## `generic/hash.c` -/

theorem base64EncodeBuffer_eq (uninit : Fin 3 → UInt8) (inputBuffer : Bytes) :
    base64EncodeBuffer uninit inputBuffer =
      if (Base64.encode inputBuffer).length < bufferLimit then some (Base64.encode inputBuffer)
      else none := by
  have hletters : ∀ c ∈ Base64.encode inputBuffer, decide (c ≠ 0) = true := fun c hc => by
    have hzero := Base64.zero_notMem_encode inputBuffer
    rw [decide_eq_true_eq]
    rintro rfl
    exact hzero hc
  have htext : (Base64.encode inputBuffer ++ [0]).takeWhile (fun c => c ≠ 0) =
      Base64.encode inputBuffer := by
    rw [List.takeWhile_append_of_pos hletters]
    simp
  rw [base64EncodeBuffer, b64Encode_eq]
  split_ifs
  · rw [Option.map_some, htext]
  · rfl

theorem base64DecodeBuffer_eq (uninit : Fin 4 → UInt8) (inputBuffer : Bytes) :
    base64DecodeBuffer uninit inputBuffer =
      if (Base64.leadingLetters inputBuffer).length < 2 ^ 31 then
        some (Base64.decodeLetters inputBuffer)
      else none := by
  rw [base64DecodeBuffer, b64DecodeEx_eq]
  split_ifs
  · rw [Option.map_some, List.take_left]
  · rfl

/-- **Every byte string comes back** that the encoder has a buffer for; for the others the size of
the buffer overflows. -/
theorem base64Buffer_roundTrip (uninit : Fin 3 → UInt8) (uninit' : Fin 4 → UInt8) (bytes : Bytes) :
    ((bytes.length + 2) / 3 * 4 < bufferLimit →
        base64EncodeBuffer uninit bytes = some (Base64.encode bytes) ∧
          base64DecodeBuffer uninit' (Base64.encode bytes) = some bytes) ∧
      (bufferLimit ≤ (bytes.length + 2) / 3 * 4 → base64EncodeBuffer uninit bytes = none) := by
  rw [← Base64.length_encode, base64EncodeBuffer_eq, base64DecodeBuffer_eq]
  refine ⟨fun hroom => ?_, fun hlong => if_neg (not_lt.2 hlong)⟩
  have hletters : (Base64.leadingLetters (Base64.encode bytes)).length < 2 ^ 31 := by
    have hle := (List.takeWhile_sublist (l := Base64.encode bytes) Base64.isLetter).length_le
    unfold Base64.leadingLetters
    unfold bufferLimit b64BufferSize at hroom
    omega
  have hdecode : Base64.decodeLetters (Base64.encode bytes) = bytes :=
    Base64.decodeLetters_of_decode (Base64.decode_encode bytes)
  rw [if_pos hroom, if_pos hletters, hdecode]
  exact ⟨rfl, rfl⟩

/-- **Any text can be decoded**: nothing outside of a buffer is read or written, the letters at the
start of the text count, and a text of whole groups is read as such. -/
theorem base64Buffer_anyText (uninit : Fin 4 → UInt8) (text : Bytes) :
    ((Base64.leadingLetters text).length < 2 ^ 31 →
        ∃ bytes, base64DecodeBuffer uninit text = some bytes ∧
          bytes = Base64.decodeLetters text ∧
          bytes.length = (Base64.leadingLetters text).length / 4 * 3 +
            ((Base64.leadingLetters text).length % 4 - 1) ∧
          ∀ whole, Base64.decode text = some whole → bytes = whole) ∧
      (2 ^ 31 ≤ (Base64.leadingLetters text).length →
        base64DecodeBuffer uninit text = none) := by
  rw [base64DecodeBuffer_eq]
  refine ⟨fun hletters => ⟨Base64.decodeLetters text, if_pos hletters, rfl,
    Base64.length_decodeLetters text, fun whole hwhole => ?_⟩, fun hlong => if_neg (not_lt.2 hlong)⟩
  exact Base64.decodeLetters_of_decode hwhole

end SimpleServer.Generic.B64
