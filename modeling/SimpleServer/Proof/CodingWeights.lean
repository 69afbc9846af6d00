import Mathlib.Data.List.DropRight
import SimpleServer.Http.ContentCoding
import SimpleServer.Http.ParserStrings
import SimpleServer.Lib.Decimal

/-!
# What an `accept-encoding` header lists

A header lists codings between commas, by names in letters of either case, each with a weight behind
a semicolon or with the weight 1, and with blanks around every part. The parser takes names in lower
case only, and no blanks behind a name or a weight, and its weights are rounded.

* `getCompressionSettings_eq`: what the parser reads of a header.
* `exists_listed_of_read`: what is read is listed, but for the weight.
-/

namespace SimpleServer.Http

open Lib Hpack

variable {Uri : Type} {p : HeadParser Uri} {blank : UInt8 → Prop} [DecidablePred blank]

/-! ## Weights -/

/-- The value of a decimal: digits, with a dot or without. -/
def decimalQuality (text : Bytes) : Option ℚ :=
  match splitFirst [0x2E] text with
  | none => if IsDecimal text then some (decimalValue text) else none
  | some (whole, fraction) =>
    if (whole ++ fraction).all fun c => IsDigit c then
      some (decimalValue whole + decimalValue fraction / 10 ^ fraction.length)
    else none

/-- The weight of a text `q=...`, with its value read by `read`. -/
def qualityOf {α : Type} (read : Bytes → Option α) : Bytes → Option α
  | q :: 0x3D :: value => if q = 0x71 ∨ q = 0x51 then read value else none
  | _ => none

/-! ## Elements -/

/-- A coding with the weight that a header gives it. -/
structure ListedCoding where
  value : CompressionValue
  weight : ℚ
deriving DecidableEq

/-- The names of the codings. -/
def codingNames : List (Bytes × CompressionValue) :=
  [(ascii "*", .allEncodings), (ascii "identity", .noEncoding),
    (ascii "gzip", .normalEncoding .gzip), (ascii "x-gzip", .normalEncoding .gzip),
    (ascii "deflate", .normalEncoding .deflate), (ascii "br", .normalEncoding .br),
    (ascii "zstd", .normalEncoding .zstd),
    (ascii "compress", .normalEncoding .compress), (ascii "x-compress", .normalEncoding .compress)]

/-- The name of an element, and its weight. -/
def elementParts (element : Bytes) : Bytes × Bytes := (splitFirst [0x3B] element).getD (element, [])

/-- A text without the blanks at both ends. -/
def trimBlanks (blank : UInt8 → Prop) [DecidablePred blank] (text : Bytes) : Bytes :=
  (text.dropWhile fun c => blank c).rdropWhile fun c => blank c

/-- What an element of the header lists, if it is a coding that is known. -/
def listedEntry (blank : UInt8 → Prop) [DecidablePred blank] (element : Bytes) :
    Option ListedCoding :=
  (codingNames.find? fun coding =>
    eqIgnoreCase coding.1 (trimBlanks blank (elementParts element).1)).map fun coding =>
      ⟨coding.2, (qualityOf decimalQuality (trimBlanks blank (elementParts element).2)).getD 1⟩

/-- The codings that a header value lists. -/
def listedCodings (blank : UInt8 → Prop) [DecidablePred blank] (value : Bytes) :
    List ListedCoding := (value.splitOn 0x2C).filterMap (listedEntry blank)

/-- What is read of an element: blanks behind the name or the weight count, and so do capitals. -/
def readEntry (blank : UInt8 → Prop) [DecidablePred blank] (element : Bytes) :
    Option CompressionEntry :=
  (codingNames.find? fun coding =>
    coding.1 = (elementParts element).1.dropWhile fun c => blank c).map fun coding =>
      ⟨coding.2, (qualityOf parseCompressionQualityFloatTstr
        ((elementParts element).2.dropWhile fun c => blank c)).getD 1⟩

/-- The codings that are read of a header value. -/
def readCodings (blank : UInt8 → Prop) [DecidablePred blank] (value : Bytes) :
    List CompressionEntry := (value.splitOn 0x2C).filterMap (readEntry blank)

/-- Names have no blanks, and differ in more than the case of their letters. -/
theorem codingNames_distinct : ∀ coding ∈ codingNames, (∀ c ∈ coding.1, 0x20 < c) ∧
    (codingNames.find? fun other => eqIgnoreCase other.1 coding.1) = some coding := by
  decide +kernel

theorem trimBlanks_name {name : Bytes} (hcontrol : ∀ c, blank c → c ≤ 0x20)
    (hname : ∀ c ∈ name.dropWhile fun c => blank c, 0x20 < c) :
    trimBlanks blank name = name.dropWhile fun c => blank c := by
  rw [trimBlanks, List.rdropWhile_eq_self_iff]
  intro hne hlast
  have hblank : blank ((name.dropWhile fun c => blank c).getLast hne) := by simpa using hlast
  have hle := hcontrol _ hblank
  have hless := hname _ (List.getLast_mem hne)
  exact absurd hless (UInt8.not_lt.2 hle)

/-- **What is read is listed**, but for the weight. -/
theorem exists_listed_of_read (hcontrol : ∀ c, blank c → c ≤ 0x20) {value : Bytes}
    {entry : CompressionEntry} (h : entry ∈ readCodings blank value) :
    ∃ listed ∈ listedCodings blank value, listed.value = entry.value := by
  obtain ⟨element, helement, hread⟩ := List.mem_filterMap.1 h
  obtain ⟨coding, hfind, rfl⟩ := Option.map_eq_some_iff.1 hread
  have hname : coding.1 = (elementParts element).1.dropWhile fun c => blank c := by
    simpa using List.find?_some hfind
  obtain ⟨hclear, hsame⟩ := codingNames_distinct coding (List.mem_of_find?_eq_some hfind)
  have htrim : trimBlanks blank (elementParts element).1 = coding.1 := by
    rw [trimBlanks_name hcontrol (hname ▸ hclear), ← hname]
  have hlisted : listedEntry blank element = some ⟨coding.2,
      (qualityOf decimalQuality (trimBlanks blank (elementParts element).2)).getD 1⟩ := by
    rw [listedEntry, htrim, hsame, Option.map_some]
  exact ⟨_, List.mem_filterMap.2 ⟨element, helement, hlisted⟩, rfl⟩

theorem decimalQuality_nonneg {text : Bytes} {weight : ℚ} (h : decimalQuality text = some weight) :
    0 ≤ weight := by
  unfold decimalQuality at h
  split at h
  · split_ifs at h
    obtain rfl := Option.some.inj h
    positivity
  · split_ifs at h
    obtain rfl := Option.some.inj h
    positivity

/-- No weight is below 0. -/
theorem weight_nonneg_of_listed {value : Bytes} {entry : ListedCoding}
    (h : entry ∈ listedCodings blank value) : 0 ≤ entry.weight := by
  obtain ⟨element, -, hlisted⟩ := List.mem_filterMap.1 h
  obtain ⟨coding, -, rfl⟩ := Option.map_eq_some_iff.1 hlisted
  cases hquality : qualityOf decimalQuality (trimBlanks blank (elementParts element).2) with
  | none => exact zero_le_one
  | some weight =>
    unfold qualityOf at hquality
    split at hquality
    · split_ifs at hquality
      exact decimalQuality_nonneg hquality
    · cases hquality

theorem parseCompressionValue_eq (name : Bytes) :
    parseCompressionValue name =
      (codingNames.find? fun coding => coding.1 = name).map Prod.snd := by
  unfold parseCompressionValue parseCompressionType
  split_ifs with hall hidentity hgzip hdeflate hbr hzstd hcompress
  · subst hall
    rfl
  · subst hidentity
    rfl
  · rcases hgzip with rfl | rfl <;> rfl
  · subst hdeflate
    rfl
  · subst hbr
    rfl
  · subst hzstd
    rfl
  · rcases hcompress with rfl | rfl <;> rfl
  · rw [not_or] at hgzip hcompress
    have hnone : (codingNames.find? fun coding => coding.1 = name) = none := by
      simp only [codingNames, List.find?_eq_none, List.forall_mem_cons, decide_eq_true_eq]
      exact ⟨Ne.symm hall, Ne.symm hidentity, Ne.symm hgzip.1, Ne.symm hgzip.2, Ne.symm hdeflate,
        Ne.symm hbr, Ne.symm hzstd, Ne.symm hcompress.1, Ne.symm hcompress.2,
        fun coding hcoding => absurd hcoding List.not_mem_nil⟩
    rw [hnone]
    rfl

theorem parseCompressionQuality_eq (hlaw : p.Lawful blank) (weight : Bytes) :
    parseCompressionQuality p weight =
      qualityOf parseCompressionQualityFloatTstr (weight.dropWhile fun c => blank c) := by
  rw [parseCompressionQuality, hlaw.lstrip]
  split
  · rename_i q value hweight
    have hquality : qualityOf parseCompressionQualityFloatTstr (q :: 0x3D :: value) =
        if q = 0x71 ∨ q = 0x51 then parseCompressionQualityFloatTstr value else none := rfl
    rw [hweight, hquality]
    by_cases hq : q = 0x71 ∨ q = 0x51
    · rw [if_pos hq, if_neg fun hnot => hq.elim hnot.1 hnot.2]
    · rw [if_neg hq, if_pos (not_or.1 hq)]
  · rename_i hother
    unfold qualityOf
    split
    · rename_i q value hweight
      exact absurd hweight (hother q value)
    · rfl

/-- Blanks in front of an element are blanks in front of its name. -/
theorem elementParts_dropWhile (hlaw : p.Lawful blank) (element : Bytes) :
    elementParts (element.dropWhile fun c => blank c) =
      ((elementParts element).1.dropWhile fun c => blank c, (elementParts element).2) := by
  have hsemicolon : ¬ blank 0x3B := fun hblank => absurd (hlaw.control _ hblank) (by decide)
  unfold elementParts
  by_cases hmem : 0x3B ∈ element
  · obtain ⟨name, weight, rfl, hnot⟩ := List.eq_append_cons_of_mem hmem
    have hdrop : (name ++ 0x3B :: weight).dropWhile (fun c => blank c) =
        (name.dropWhile fun c => blank c) ++ 0x3B :: weight := by
      rw [List.dropWhile_append]
      split_ifs with hall
      · rw [List.isEmpty_iff] at hall
        rw [hall, List.dropWhile_cons_of_neg (by simpa using hsemicolon), List.nil_append]
      · rfl
    have hnot' : 0x3B ∉ name.dropWhile fun c => blank c := fun hin =>
      hnot ((List.dropWhile_sublist _).subset hin)
    rw [hdrop, splitFirst_append_cons hnot', splitFirst_append_cons hnot]
    rfl
  · have hnot' : 0x3B ∉ element.dropWhile fun c => blank c := fun hin =>
      hmem ((List.dropWhile_sublist _).subset hin)
    rw [splitFirst_eq_none_of_not_mem hnot', splitFirst_eq_none_of_not_mem hmem]
    rfl

/-- What a round of the loop reads. -/
theorem compressionEntry_eq (hlaw : p.Lawful blank) (element : Bytes) :
    compressionEntry p element = readEntry blank element := by
  have hparts : (p.tstrSplit (p.tstrViewLstrip element) (ascii ";")).getD
      (p.tstrViewLstrip element, []) =
        ((elementParts element).1.dropWhile fun c => blank c, (elementParts element).2) := by
    rw [← elementParts_dropWhile hlaw, hlaw.lstrip]
    exact congrArg (fun parts => Option.getD parts _) (hlaw.split _ _)
  have hweight : (if (elementParts element).2.length ≠ 0 then
      (parseCompressionQuality p (elementParts element).2).getD 1 else 1) =
        (qualityOf parseCompressionQualityFloatTstr
          ((elementParts element).2.dropWhile fun c => blank c)).getD 1 := by
    by_cases hempty : (elementParts element).2 = []
    · rw [hempty]
      rfl
    · rw [if_pos (by simpa [List.length_eq_zero_iff] using hempty), parseCompressionQuality_eq hlaw]
  unfold compressionEntry readEntry
  dsimp only
  rw [hparts]
  dsimp only
  rw [hweight, hlaw.lstrip, List.dropWhile_idempotent, parseCompressionValue_eq, Option.map_map]
  rfl

/-- The value of the first `accept-encoding` header. -/
def acceptEncoding (headerFields : List HttpHeaderField) : Bytes :=
  ((findHeaderByKey headerFields (ascii "accept-encoding")).map HttpHeaderField.value).getD []

/-- **What is read of the headers.** -/
theorem getCompressionSettings_eq (hlaw : p.Lawful blank) (headerFields : List HttpHeaderField) :
    getCompressionSettings p headerFields = readCodings blank (acceptEncoding headerFields) := by
  have hnone : readCodings blank [] = [] := rfl
  unfold getCompressionSettings acceptEncoding
  cases findHeaderByKey headerFields (ascii "accept-encoding") with
  | none => exact hnone.symm
  | some header =>
    dsimp only [Option.map_some, Option.getD_some]
    by_cases hempty : header.value = []
    · rw [hempty]
      exact hnone.symm
    · have hpieces : p.tstrSplitPieces header.value (ascii ",") = header.value.splitOn 0x2C :=
        hlaw.splitPieces hempty 0x2C
      rw [if_neg (by simpa [List.length_eq_zero_iff] using hempty), hpieces, readCodings]
      exact List.filterMap_congr fun element _ => compressionEntry_eq hlaw element

end SimpleServer.Http
