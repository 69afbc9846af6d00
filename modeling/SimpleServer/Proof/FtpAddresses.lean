import SimpleServer.Ftp.Address
import SimpleServer.Lib.Occurrence

/-!
# The numbers of FTP addresses

The memory of `s_addr` is turned round when it is read, on machines of either byte order, and turned
round when it is printed, on little-endian ones. The two numbers of a port are read in the wrong
order and printed in the right one.

* `parsePortInfo_numbers`: what six numbers are read as.
* `ftpAddresses_iff`: **when addresses are read, printed and refused as they should be.**
-/

namespace SimpleServer.Ftp

open Lib

variable {host : ByteOrder} {strings : CommandStrings} {arg : Bytes}

/-! ## The string library -/

/-- A number behind a sign. -/
def Signed (text : Bytes) : Prop :=
  ∃ sign digits, text = sign :: digits ∧ (sign = 0x2B ∨ sign = 0x2D)

/-- The string library: the pieces are what stands between the delimiters, and decimal numbers are
read, with a sign or without. -/
structure CommandStrings.Lawful (strings : CommandStrings) : Prop where
  joined : ∀ value c, [c].intercalate (strings.tstrSplitPieces value [c]) = value
  pieces : ∀ value c, ∀ piece ∈ strings.tstrSplitPieces value [c], c ∉ piece
  toInt : ∀ text, IsDecimal text → decimalValue text < 2 ^ 31 →
    strings.tstrViewToInt text = some (decimalValue text : ℤ)
  toInt_some : ∀ text value, strings.tstrViewToInt text = some value → IsDecimal text ∨ Signed text

/-- The numbers between the delimiters. -/
theorem CommandStrings.Lawful.split (hlaw : strings.Lawful) {texts : List Bytes} {c : UInt8}
    (hne : texts ≠ []) (hlong : [c].intercalate texts ≠ []) (h : ∀ text ∈ texts, c ∉ text) :
    strings.tstrSplitPieces ([c].intercalate texts) [c] = texts := by
  have hjoined := hlaw.joined ([c].intercalate texts) c
  have hpieces : strings.tstrSplitPieces ([c].intercalate texts) [c] ≠ [] := by
    intro hempty
    rw [hempty] at hjoined
    exact hlong hjoined.symm
  rw [eq_splitOn hpieces hjoined (hlaw.pieces _ c), List.splitOn_intercalate c h hne]

theorem foldl_decimal_int (value : ℤ) {text : Bytes} (h : ∀ c ∈ text, IsDigit c) :
    text.foldl (fun (result : ℤ) c => result * 10 + (c.toNat - 0x30)) value =
      value * 10 ^ text.length + decimalValue text := by
  induction text generalizing value with
  | nil => simp
  | cons c text ih =>
    rw [List.forall_mem_cons] at h
    have hdigit := (isDigit_iff.1 h.1).1
    rw [List.foldl_cons, ih _ h.2, decimalValue_cons, List.length_cons, pow_succ]
    push_cast [hdigit]
    ring

theorem CommandStrings.plain_lawful : CommandStrings.plain.Lawful where
  joined value c := List.intercalate_splitOn c
  pieces value c := notMem_of_mem_splitOn value
  toInt text h _ := by
    have hall : text ≠ [] ∧ text.all (fun c => 0x30 ≤ c ∧ c ≤ 0x39) := by
      refine ⟨h.ne_nil, List.all_eq_true.2 ?_⟩
      intro c hc
      exact decide_eq_true (h.digits c hc)
    have hvalue := foldl_decimal_int 0 h.digits
    rw [zero_mul, zero_add] at hvalue
    exact (if_pos hall).trans (congrArg some hvalue)
  toInt_some text value h := by
    unfold plain at h
    dsimp only at h
    split_ifs at h with hall
    refine .inl ⟨hall.1, ?_⟩
    intro c hc
    exact of_decide_eq_true (List.all_eq_true.1 hall.2 c hc)

/-! ## Six numbers -/

/-- The text of a number of at most three digits below 256. -/
structure NumberText (text : Bytes) (number : UInt8) : Prop where
  decimal : IsDecimal text
  short : text.length ≤ 3
  value : decimalValue text = number.toNat

/-- Six numbers with commas between them. -/
def SixNumbers (arg : Bytes) (numbers : List UInt8) : Prop :=
  numbers.length = 6 ∧
    ∃ texts, List.Forall₂ NumberText texts numbers ∧ arg = [0x2C].intercalate texts

theorem decimal_small {text : Bytes} (h : IsDecimal text) (hshort : text.length ≤ 3) :
    decimalValue text < 2 ^ 31 := by
  have hlt := decimalValue_lt h.digits
  have hpow : 10 ^ text.length ≤ 10 ^ 3 := Nat.pow_le_pow_right (by omega) hshort
  omega

/-- A piece is taken as a number if and only if it is the text of one, unless it has a sign. -/
theorem parseU8Into_number (hlaw : strings.Lawful) {text : Bytes} {number : UInt8}
    (h : NumberText text number) : parseU8Into strings text = some number := by
  have hnumber := number.toNat_lt
  rw [parseU8Into, if_neg (by have := h.short; omega),
    hlaw.toInt text h.decimal (decimal_small h.decimal h.short), h.value]
  dsimp only
  rw [if_neg (by omega), Int.toNat_natCast, UInt8.ofNat_toNat]

theorem parseU8Into_decimal (hlaw : strings.Lawful) {text : Bytes} {number : UInt8}
    (hdecimal : IsDecimal text) (h : parseU8Into strings text = some number) :
    NumberText text number := by
  unfold parseU8Into at h
  split_ifs at h with hlong
  rw [hlaw.toInt text hdecimal (decimal_small hdecimal (by omega))] at h
  dsimp only at h
  split_ifs at h with hrange
  refine ⟨hdecimal, by omega, ?_⟩
  rw [← Option.some.inj h, Int.toNat_natCast, UInt8.toNat_ofNat']
  omega

theorem mapM_eq_some_iff {f : Bytes → Option UInt8} {texts : List Bytes} {numbers : List UInt8} :
    texts.mapM f = some numbers ↔
      List.Forall₂ (fun text number => f text = some number) texts numbers := by
  induction texts generalizing numbers with
  | nil =>
    rw [List.mapM_nil, List.forall₂_nil_left_iff]
    exact Option.some_inj.trans eq_comm
  | cons text texts ih =>
    rw [List.mapM_cons, List.forall₂_cons_left_iff]
    cases htext : f text with
    | none => simp
    | some number =>
      cases hrest : texts.mapM f with
      | none =>
        refine iff_of_false nofun ?_
        rintro ⟨number', numbers', hnumber, hnumbers, rfl⟩
        rw [← ih, hrest] at hnumbers
        cases hnumbers
      | some rest =>
        constructor
        · intro h
          cases h
          exact ⟨number, rest, htext ▸ rfl, ih.1 hrest, rfl⟩
        · rintro ⟨number', numbers', hnumber, hnumbers, rfl⟩
          rw [← ih, hrest] at hnumbers
          cases hnumbers
          cases hnumber
          rfl

/-- The pieces of six numbers are their texts. -/
theorem sixNumbers_pieces (hlaw : strings.Lawful) {numbers : List UInt8}
    (h : SixNumbers arg numbers) :
    List.Forall₂ NumberText (strings.tstrSplitPieces arg (ascii ",")) numbers := by
  obtain ⟨hlength, texts, htexts, rfl⟩ := h
  have hsix : texts.length = 6 := htexts.length_eq.trans hlength
  have hcomma : ∀ text ∈ texts, 0x2C ∉ text := by
    intro text htext hmem
    obtain ⟨n, hn, rfl⟩ := List.mem_iff_getElem.1 htext
    have hnumber := htexts.get hn (htexts.length_eq ▸ hn)
    exact absurd (hnumber.decimal.digits _ hmem) (by decide)
  have hne : texts ≠ [] := List.ne_nil_of_length_pos (by omega)
  have hlong : [0x2C].intercalate texts ≠ [] := by
    match texts, hsix with
    | first :: second :: rest, _ => simp [List.intercalate_cons_cons]
  have hsplit : strings.tstrSplitPieces ([0x2C].intercalate texts) (ascii ",") = texts :=
    hlaw.split hne hlong hcomma
  rwa [hsplit]

/-- Six numbers are read. -/
theorem pieces_numbers (hlaw : strings.Lawful) {numbers : List UInt8} (h : SixNumbers arg numbers) :
    (strings.tstrSplitPieces arg (ascii ",")).mapM (parseU8Into strings) = some numbers := by
  rw [mapM_eq_some_iff]
  exact (sixNumbers_pieces hlaw h).imp fun text number => parseU8Into_number hlaw

/-! ## Reading -/

/-- The port is read with its low byte first. -/
theorem deserializeU16_reversed (p1 p2 : UInt8) :
    deserializeU16LeToHost host [p1, p2] = ofBE [p2, p1] := host.toLittle_load [p1, p2]

/-- The memory of the address is turned round, whatever the machine. -/
theorem getIpv4Address_memory {numbers : List UInt8} {h1 h2 h3 h4 : UInt8}
    (h : numbers.take 4 = [h1, h2, h3, h4]) :
    host.store 4 (getIpv4AddressFromHostBytes host numbers).toNat = [h4, h3, h2, h1] := by
  have hread : deserializeU32LeToNo host numbers = host.toNetwork 4 (ofBE [h4, h3, h2, h1]) := by
    rw [deserializeU32LeToNo, h]
    exact congrArg (host.toNetwork 4) (host.toLittle_load [h1, h2, h3, h4])
  have hlt : host.toNetwork 4 (ofBE [h4, h3, h2, h1]) < 256 ^ 4 :=
    host.toNetwork_lt (ofBE_lt [h4, h3, h2, h1])
  rw [getIpv4AddressFromHostBytes, hread, UInt32.toNat_ofNat_of_lt' hlt, host.store_toNetwork]
  exact toBE_ofBE [h4, h3, h2, h1]

variable (host) in
/-- **What six numbers are read as.** -/
theorem parsePortInfo_numbers (hlaw : strings.Lawful) {h1 h2 h3 h4 p1 p2 : UInt8}
    (h : SixNumbers arg [h1, h2, h3, h4, p1, p2]) :
    ∃ info, parseFtpCommandPortInfoOn host strings arg = some info ∧
      host.store 4 info.addr.toNat = [h4, h3, h2, h1] ∧
        info.port.toNat = 256 * p2.toNat + p1.toNat := by
  have hparse : parseFtpCommandPortInfoOn host strings arg =
      some ⟨getIpv4AddressFromHostBytes host [h1, h2, h3, h4, p1, p2],
        UInt16.ofNat (deserializeU16LeToHost host [p1, p2])⟩ := by
    rw [parseFtpCommandPortInfoOn, pieces_numbers hlaw h]
  have hport : (UInt16.ofNat (deserializeU16LeToHost host [p1, p2])).toNat =
      256 * p2.toNat + p1.toNat := by
    have hlt := p1.toNat_lt
    have hlt' := p2.toNat_lt
    have hvalue : ofBE [p2, p1] = 256 * p2.toNat + p1.toNat := by
      simp only [ofBE, List.foldl_cons, List.foldl_nil]
      omega
    have hsmall : 256 * p2.toNat + p1.toNat < UInt16.size := by
      rw [UInt16.size]
      omega
    rw [deserializeU16_reversed, hvalue, UInt16.toNat_ofNat_of_lt' hsmall]
  exact ⟨_, hparse, getIpv4Address_memory rfl, hport⟩

/-- Six numbers give the address in network order, and the port with its high byte first. -/
def ReadRight (host : ByteOrder) (strings : CommandStrings) (arg : Bytes)
    (h1 h2 h3 h4 p1 p2 : UInt8) : Prop :=
  ∃ info, parseFtpCommandPortInfoOn host strings arg = some info ∧
    host.store 4 info.addr.toNat = [h1, h2, h3, h4] ∧
      info.port.toNat = 256 * p1.toNat + p2.toNat

/-- Only numbers that are the same in both directions are read as they are meant. -/
theorem readRight_iff (hlaw : strings.Lawful) {h1 h2 h3 h4 p1 p2 : UInt8}
    (h : SixNumbers arg [h1, h2, h3, h4, p1, p2]) :
    ReadRight host strings arg h1 h2 h3 h4 p1 p2 ↔ h1 = h4 ∧ h2 = h3 ∧ p1 = p2 := by
  obtain ⟨info, hparse, hmemory, hport⟩ := parsePortInfo_numbers host hlaw h
  have hlt := p1.toNat_lt
  have hlt' := p2.toNat_lt
  unfold ReadRight
  rw [hparse]
  constructor
  · rintro ⟨info', hsame, hmemory', hport'⟩
    cases hsame
    rw [hmemory] at hmemory'
    simp only [List.cons.injEq, and_true] at hmemory'
    refine ⟨hmemory'.1.symm, hmemory'.2.1.symm, UInt8.toNat_inj.1 ?_⟩
    omega
  · rintro ⟨rfl, rfl, rfl⟩
    exact ⟨info, rfl, hmemory, hport⟩

/-! ## Printing -/

/-- The text of six numbers. -/
def numbersText (numbers : List UInt8) : Bytes :=
  [0x2C].intercalate (numbers.map fun number => decimalText number.toNat)

theorem numberText_decimalText (number : UInt8) :
    NumberText (decimalText number.toNat) number := by
  have hlt := number.toNat_lt
  exact ⟨decimalText_decimal _, length_decimalText_le (by omega) (by omega),
    decimalValue_decimalText _⟩

theorem sixNumbers_text {numbers : List UInt8} (h : numbers.length = 6) :
    SixNumbers (numbersText numbers) numbers := by
  refine ⟨h, _, ?_, rfl⟩
  rw [List.forall₂_map_left_iff, List.forall₂_same]
  exact fun number _ => numberText_decimalText number

/-- Different numbers are printed differently. -/
theorem numbersText_inj {numbers numbers' : List UInt8} (hne : numbers ≠ []) (hne' : numbers' ≠ [])
    (h : numbersText numbers = numbersText numbers') : numbers = numbers' := by
  have hcomma : ∀ numbers : List UInt8, ∀ text ∈ numbers.map fun number =>
      decimalText number.toNat, 0x2C ∉ text := by
    intro numbers text htext hmem
    obtain ⟨number, -, rfl⟩ := List.mem_map.1 htext
    exact absurd ((decimalText_decimal _).digits _ hmem) (by decide)
  have hsplit := congrArg (fun text => text.splitOn 0x2C) h
  simp only [numbersText] at hsplit
  rw [List.splitOn_intercalate _ (hcomma numbers) (by simpa using hne),
    List.splitOn_intercalate _ (hcomma numbers') (by simpa using hne')] at hsplit
  refine List.map_injective_iff.2 ?_ hsplit
  intro number number' hsame
  have hvalue := congrArg decimalValue hsame
  dsimp only at hvalue
  rw [decimalValue_decimalText, decimalValue_decimalText] at hvalue
  exact UInt8.toNat_inj.1 hvalue

/-- What is printed: the bytes of `s_addr` from the highest one on, and those of the port. -/
theorem makeAddressPortDesc_eq (addr : FTPConnectAddr) :
    makeAddressPortDesc host addr = ascii "(" ++
      numbersText (toBE 4 addr.addr.toNat ++ toBE 2 addr.port.toNat) ++ ascii ")" := by
  rw [makeAddressPortDesc]
  simp only [serializeU16NoToHost, getRawBytesAsHostBytesFromIpv4Address, serializeU32NoToHost,
    host.store_toNetwork]
  rfl

/-- The numbers of the address, as they lie in memory, and those of the port are printed. -/
def PrintedRight (host : ByteOrder) (addr : FTPConnectAddr) : Prop :=
  makeAddressPortDesc host addr = ascii "(" ++
    numbersText (host.store 4 addr.addr.toNat ++ toBE 2 addr.port.toNat) ++ ascii ")"

/-- The memory of the address is the same in both directions. -/
def SameReversed (host : ByteOrder) (addr : UInt32) : Prop :=
  (host.store 4 addr.toNat).reverse = host.store 4 addr.toNat

theorem toBE_eq_store (addr : UInt32) :
    toBE 4 addr.toNat = host.store 4 addr.toNat ↔ host = .big ∨ SameReversed host addr := by
  cases host with
  | little => simp [ByteOrder.store, SameReversed]
  | big => simp [ByteOrder.store]

/-- Little-endian machines print only addresses right that are the same in both directions. -/
theorem printedRight_iff (addr : FTPConnectAddr) :
    PrintedRight host addr ↔ host = .big ∨ SameReversed host addr.addr := by
  rw [PrintedRight, makeAddressPortDesc_eq, ← toBE_eq_store]
  constructor
  · intro h
    have htext := List.append_cancel_left (List.append_cancel_right h)
    have hne (bytes : List UInt8) : bytes ++ toBE 2 addr.port.toNat ≠ [] := by
      simp [toBE]
    exact List.append_cancel_right (numbersText_inj (hne _) (hne _) htext)
  · intro h
    rw [h]

/-! ## There and back -/

/-- What stands between the parentheses of the answer to `PASV`. -/
def betweenParentheses (text : Bytes) : Bytes := (text.drop 1).dropLast

/-- What `PASV` prints is read as the address and the port. -/
def ComesBack (host : ByteOrder) (strings : CommandStrings) (addr : FTPConnectAddr) : Prop :=
  parseFtpCommandPortInfoOn host strings (betweenParentheses (makeAddressPortDesc host addr)) =
    some addr

theorem store_inj {addr addr' : UInt32} :
    host.store 4 addr.toNat = host.store 4 addr'.toNat ↔ addr = addr' := by
  constructor
  · intro h
    have hload := congrArg host.load h
    rw [host.load_store addr.toNat_lt, host.load_store addr'.toNat_lt] at hload
    exact UInt32.toNat_inj.1 hload
  · rintro rfl
    rfl

theorem reverse_eq_store (addr : UInt32) :
    (toBE 4 addr.toNat).reverse = host.store 4 addr.toNat ↔
      host = .little ∨ SameReversed host addr := by
  cases host with
  | little => simp [ByteOrder.store]
  | big => simp [ByteOrder.store, SameReversed]

theorem betweenParentheses_text (text : Bytes) :
    betweenParentheses (ascii "(" ++ text ++ ascii ")") = text := by
  have hopen : (ascii "(" ++ text ++ ascii ")").drop 1 = text ++ ascii ")" := rfl
  rw [betweenParentheses, hopen]
  exact List.dropLast_concat

/-- **What comes back**: reading turns the address round once more than printing on big-endian
machines, and swaps the two numbers of the port on all. -/
theorem comesBack_iff (hlaw : strings.Lawful) (addr : FTPConnectAddr) :
    ComesBack host strings addr ↔ (host = .little ∨ SameReversed host addr.addr) ∧
      addr.port.toNat / 256 = addr.port.toNat % 256 := by
  obtain ⟨h1, h2, h3, h4, haddr⟩ : ∃ h1 h2 h3 h4, toBE 4 addr.addr.toNat = [h1, h2, h3, h4] :=
    ⟨_, _, _, _, rfl⟩
  obtain ⟨p1, p2, hport, hhigh, hlow⟩ : ∃ p1 p2, toBE 2 addr.port.toNat = [p1, p2] ∧
      p1.toNat = addr.port.toNat / 256 ∧ p2.toNat = addr.port.toNat % 256 := by
    have hlt := addr.port.toNat_lt
    refine ⟨_, _, rfl, ?_, ?_⟩
    · rw [UInt8.toNat_ofNat', pow_one]
      omega
    · rw [UInt8.toNat_ofNat', pow_zero, Nat.div_one]
  have hsix : SixNumbers (numbersText [h1, h2, h3, h4, p1, p2]) [h1, h2, h3, h4, p1, p2] :=
    sixNumbers_text rfl
  obtain ⟨info, hparse, hmemory, hvalue⟩ := parsePortInfo_numbers host hlaw hsix
  have hreversed : host.store 4 info.addr.toNat = (toBE 4 addr.addr.toNat).reverse := by
    rw [haddr]
    exact hmemory
  rw [ComesBack, makeAddressPortDesc_eq, betweenParentheses_text, haddr, hport]
  rw [show [h1, h2, h3, h4] ++ [p1, p2] = [h1, h2, h3, h4, p1, p2] from rfl, hparse,
    ← reverse_eq_store, ← hreversed, store_inj]
  constructor
  · intro h
    cases h
    exact ⟨rfl, by omega⟩
  · rintro ⟨hsame, hbytes⟩
    have hports : info.port = addr.port := UInt16.toNat_inj.1 (by omega)
    rw [show info = ⟨info.addr, info.port⟩ from rfl, hsame, hports]

/-! ## Refusing -/

/-- What is not six numbers is refused. -/
def RefusedRight (host : ByteOrder) (strings : CommandStrings) (arg : Bytes) : Prop :=
  (∃ numbers, SixNumbers arg numbers) ∨ parseFtpCommandPortInfoOn host strings arg = none

/-- Six pieces that are all taken as numbers, one of them with a sign. -/
def TakenWithSign (strings : CommandStrings) (arg : Bytes) : Prop :=
  (strings.tstrSplitPieces arg (ascii ",")).length = 6 ∧
    (∀ piece ∈ strings.tstrSplitPieces arg (ascii ","), parseU8Into strings piece ≠ none) ∧
      ∃ piece ∈ strings.tstrSplitPieces arg (ascii ","), Signed piece

theorem parsePortInfo_ne_none {numbers : List UInt8}
    (h : (strings.tstrSplitPieces arg (ascii ",")).mapM (parseU8Into strings) = some numbers) :
    parseFtpCommandPortInfoOn host strings arg ≠ none ↔ numbers.length = 6 := by
  unfold parseFtpCommandPortInfoOn
  rw [h]
  match numbers with
  | [] | [_] | [_, _] | [_, _, _] | [_, _, _, _] | [_, _, _, _, _] => simp
  | [h1, h2, h3, h4, p1, p2] => simp
  | _ :: _ :: _ :: _ :: _ :: _ :: _ :: _ => simp

/-- What is taken are six pieces that are all taken as numbers. -/
theorem parsePortInfo_isSome :
    parseFtpCommandPortInfoOn host strings arg ≠ none ↔
      (strings.tstrSplitPieces arg (ascii ",")).length = 6 ∧
        ∀ piece ∈ strings.tstrSplitPieces arg (ascii ","), parseU8Into strings piece ≠ none := by
  cases hnumbers : (strings.tstrSplitPieces arg (ascii ",")).mapM (parseU8Into strings) with
  | none =>
    have hnone : parseFtpCommandPortInfoOn host strings arg = none := by
      rw [parseFtpCommandPortInfoOn, hnumbers]
    refine iff_of_false (not_not.2 hnone) ?_
    rintro ⟨-, htaken⟩
    have hall : (strings.tstrSplitPieces arg (ascii ",")).mapM (parseU8Into strings) =
        some ((strings.tstrSplitPieces arg (ascii ",")).map fun piece =>
          (parseU8Into strings piece).getD 0) := by
      rw [mapM_eq_some_iff, List.forall₂_map_right_iff, List.forall₂_same]
      intro piece hpiece
      obtain ⟨number, hnumber⟩ := Option.ne_none_iff_exists'.1 (htaken piece hpiece)
      rw [hnumber, Option.getD_some]
    rw [hall] at hnumbers
    cases hnumbers
  | some numbers =>
    have htaken := mapM_eq_some_iff.1 hnumbers
    rw [parsePortInfo_ne_none hnumbers, ← htaken.length_eq, iff_self_and]
    intro _ piece hpiece hnone
    obtain ⟨n, hn, rfl⟩ := List.mem_iff_getElem.1 hpiece
    have hnumber := htaken.get hn (htaken.length_eq ▸ hn)
    rw [List.get_eq_getElem, hnone] at hnumber
    cases hnumber

theorem Signed.not_decimal {text : Bytes} (h : Signed text) : ¬ IsDecimal text := by
  obtain ⟨sign, digits, rfl, hsign⟩ := h
  intro hdecimal
  have hdigit := hdecimal.digits sign List.mem_cons_self
  rcases hsign with rfl | rfl <;> exact absurd hdigit (by decide)

theorem parseU8Into_not_signed (hlaw : strings.Lawful) {text : Bytes} (hsign : ¬ Signed text)
    (h : parseU8Into strings text ≠ none) : IsDecimal text := by
  unfold parseU8Into at h
  split_ifs at h with hlong
  · exact absurd rfl h
  · cases hvalue : strings.tstrViewToInt text with
    | none =>
      rw [hvalue] at h
      exact absurd rfl h
    | some value => exact (hlaw.toInt_some text value hvalue).resolve_right hsign

/-- What is not six numbers is refused, as long as no sign is taken. -/
theorem refusedRight_iff (hlaw : strings.Lawful) (arg : Bytes) :
    RefusedRight host strings arg ↔ ¬ TakenWithSign strings arg := by
  unfold RefusedRight
  constructor
  · rintro hright ⟨hsix, htaken, piece, hpiece, hsigned⟩
    rcases hright with ⟨numbers, hnumbers⟩ | hnone
    · have hpieces := sixNumbers_pieces hlaw hnumbers
      obtain ⟨n, hn, rfl⟩ := List.mem_iff_getElem.1 hpiece
      exact hsigned.not_decimal (hpieces.get hn (hpieces.length_eq ▸ hn)).decimal
    · exact parsePortInfo_isSome.2 ⟨hsix, htaken⟩ hnone
  · intro hsigned
    by_cases hnone : parseFtpCommandPortInfoOn host strings arg = none
    · exact .inr hnone
    · obtain ⟨hsix, htaken⟩ := parsePortInfo_isSome.1 hnone
      refine .inl ⟨(strings.tstrSplitPieces arg (ascii ",")).map fun piece =>
        (parseU8Into strings piece).getD 0, ?_, _, ?_, (hlaw.joined arg 0x2C).symm⟩
      · rw [List.length_map, hsix]
      · rw [List.forall₂_map_right_iff]
        show List.Forall₂ _ (strings.tstrSplitPieces arg (ascii ","))
          (strings.tstrSplitPieces arg (ascii ","))
        rw [List.forall₂_same]
        intro piece hpiece
        have hunsigned : ¬ Signed piece := fun hsign => hsigned ⟨hsix, htaken, piece, hpiece, hsign⟩
        have hdecimal := parseU8Into_not_signed hlaw hunsigned (htaken piece hpiece)
        obtain ⟨number, hnumber⟩ := Option.ne_none_iff_exists'.1 (htaken piece hpiece)
        rw [hnumber, Option.getD_some]
        exact parseU8Into_decimal hlaw hdecimal hnumber

/-! ## The result -/

/-- **When addresses are read, printed and refused as they should be**, on machines of either byte
order. -/
theorem ftpAddresses_iff (hlaw : strings.Lawful) (host : ByteOrder) :
    (∀ arg h1 h2 h3 h4 p1 p2, SixNumbers arg [h1, h2, h3, h4, p1, p2] →
      (ReadRight host strings arg h1 h2 h3 h4 p1 p2 ↔ h1 = h4 ∧ h2 = h3 ∧ p1 = p2)) ∧
    (∀ addr, PrintedRight host addr ↔ host = .big ∨ SameReversed host addr.addr) ∧
    (∀ addr, ComesBack host strings addr ↔ (host = .little ∨ SameReversed host addr.addr) ∧
      addr.port.toNat / 256 = addr.port.toNat % 256) ∧
    ∀ arg, RefusedRight host strings arg ↔ ¬ TakenWithSign strings arg := by
  refine ⟨?_, printedRight_iff, comesBack_iff hlaw, refusedRight_iff hlaw⟩
  intro arg h1 h2 h3 h4 p1 p2
  exact readRight_iff hlaw

/-- Numbers that are the same in both directions. -/
theorem ftpAddresses_palindrome :
    ReadRight .little .plain (ascii "1,2,2,1,7,7") 1 2 2 1 7 7 := by
  have hsix : SixNumbers (ascii "1,2,2,1,7,7") [1, 2, 2, 1, 7, 7] := by
    have htext : ascii "1,2,2,1,7,7" = numbersText [1, 2, 2, 1, 7, 7] := by decide
    rw [htext]
    exact sixNumbers_text rfl
  exact ((ftpAddresses_iff CommandStrings.plain_lawful .little).1 _ 1 2 2 1 7 7 hsix).2
    ⟨rfl, rfl, rfl⟩

/-- The address 4.3.2.1 and the port 1541 are read of the numbers of 1.2.3.4 and 1286. -/
theorem numbers_reversed : ¬ ReadRight .little .plain (ascii "1,2,3,4,5,6") 1 2 3 4 5 6 := by
  have hparse : parseFtpCommandPortInfoOn .little .plain (ascii "1,2,3,4,5,6") =
      some ⟨16909060, 1541⟩ := by decide
  rintro ⟨info, hsome, -, hport⟩
  rw [hparse] at hsome
  cases hsome
  exact absurd hport (by decide)

end SimpleServer.Ftp
