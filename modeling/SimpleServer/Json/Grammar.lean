import SimpleServer.Json.Value

/-!
# The JSON grammar

The grammar of RFC 8259, section 2, as trees: a tree of the grammar has its text (`bytes`), and
its value once it is said how numbers and strings are read (`eval`). The rules are kept one to
one, the insignificant whitespace of a structural character with the character.

* `ValueText`, `JsonText`: values and whole texts.
* `ValueText.eval_eq_iff`: two readings agree on a text when they agree on its numbers and
  strings.
* `joinSurrogates_eq_self`: strings without surrogate pairs.
* `JsonText.isUtf8`: a text of the grammar is well-formed UTF-8.
-/

namespace SimpleServer.Json

/-! ## Whitespace and structural characters -/

/-- One character of `ws`. -/
inductive Ws where
  | space
  | horizontalTab
  | lineFeed
  | carriageReturn

def Ws.byte : Ws → UInt8
  | .space => 0x20
  | .horizontalTab => 0x09
  | .lineFeed => 0x0A
  | .carriageReturn => 0x0D

def spaces (ws : List Ws) : Bytes := ws.map Ws.byte

/-- The whitespace around a structural character. -/
structure Structural where
  before : List Ws
  after : List Ws

/-- `ws character ws`. -/
def Structural.bytes (around : Structural) (character : UInt8) : Bytes :=
  spaces around.before ++ character :: spaces around.after

/-! ## Numbers -/

abbrev Digit := Fin 10

def digitByte (digit : Digit) : UInt8 := UInt8.ofNat (0x30 + digit)

def digitBytes (digits : List Digit) : Bytes := digits.map digitByte

/-- The number that `digits` write behind those of `value`. -/
def decimalFrom (value : ℕ) (digits : List Digit) : ℕ :=
  digits.foldl (fun value digit => value * 10 + digit) value

/-- `0.d₁d₂…` -/
def fraction : List Digit → ℚ
  | [] => 0
  | digit :: digits => ((digit : ℕ) + fraction digits) / 10

/-- `int = zero / ( digit1-9 *DIGIT )` -/
inductive IntText where
  | zero
  | digits (first : Fin 9) (more : List Digit)

def IntText.bytes : IntText → Bytes
  | .zero => [0x30]
  | .digits first more => digitByte first.succ :: digitBytes more

def IntText.value : IntText → ℕ
  | .zero => 0
  | .digits first more => decimalFrom first.succ more

/-- `frac = decimal-point 1*DIGIT` -/
structure FracText where
  first : Digit
  more : List Digit

def FracText.bytes (frac : FracText) : Bytes := 0x2E :: digitBytes (frac.first :: frac.more)

def FracText.value (frac : FracText) : ℚ := fraction (frac.first :: frac.more)

/-- `exp = e [ minus / plus ] 1*DIGIT` -/
structure ExpText where
  upper : Bool
  sign : Option Bool
  first : Digit
  more : List Digit

/-- `minus / plus` -/
def signBytes : Option Bool → Bytes
  | none => []
  | some true => [0x2D]
  | some false => [0x2B]

def ExpText.bytes (exp : ExpText) : Bytes :=
  (if exp.upper then 0x45 else 0x65) :: (signBytes exp.sign ++ digitBytes (exp.first :: exp.more))

def ExpText.magnitude (exp : ExpText) : ℕ := decimalFrom exp.first exp.more

def ExpText.value (exp : ExpText) : ℤ :=
  if exp.sign = some true then -(exp.magnitude : ℤ) else exp.magnitude

/-- `number = [ minus ] int [ frac ] [ exp ]` -/
structure NumberText where
  minus : Bool
  int : IntText
  frac : Option FracText
  exp : Option ExpText

namespace NumberText

def bytes (number : NumberText) : Bytes :=
  (if number.minus then [0x2D] else []) ++ (number.int.bytes ++
    (number.frac.elim [] FracText.bytes ++ number.exp.elim [] ExpText.bytes))

/-- The number with its integer part read as `int`. -/
def valueWith (number : NumberText) (int : ℕ) : ℚ :=
  (if number.minus then -1 else 1) *
    ((int + number.frac.elim 0 FracText.value) * 10 ^ number.exp.elim 0 ExpText.value)

/-- The decimal number. -/
def value (number : NumberText) : ℚ := number.valueWith number.int.value

/-- The integer part fits `uint64_t`, the exponent part `int64_t`. -/
structure Fits (number : NumberText) : Prop where
  int : number.int.value < 2 ^ 64
  exp : ∀ exp, number.exp = some exp → exp.magnitude < 2 ^ 63

end NumberText

/-! ## Strings -/

/-- The characters that stand for another one behind a reverse solidus. -/
inductive Escape where
  | quotationMark
  | reverseSolidus
  | solidus
  | backspace
  | formFeed
  | lineFeed
  | carriageReturn
  | tab

def Escape.letter : Escape → UInt8
  | .quotationMark => 0x22
  | .reverseSolidus => 0x5C
  | .solidus => 0x2F
  | .backspace => 0x62
  | .formFeed => 0x66
  | .lineFeed => 0x6E
  | .carriageReturn => 0x72
  | .tab => 0x74

def Escape.codepoint : Escape → Utf8Codepoint
  | .quotationMark => 0x22
  | .reverseSolidus => 0x5C
  | .solidus => 0x2F
  | .backspace => 0x08
  | .formFeed => 0x0C
  | .lineFeed => 0x0A
  | .carriageReturn => 0x0D
  | .tab => 0x09

/-- A digit of `4HEXDIG`. -/
structure HexDigit where
  value : Fin 16
  upper : Bool

def HexDigit.byte (digit : HexDigit) : UInt8 :=
  if digit.value < 10 then UInt8.ofNat (0x30 + digit.value)
  else if digit.upper then UInt8.ofNat (0x41 - 10 + digit.value)
  else UInt8.ofNat (0x61 - 10 + digit.value)

/-- `unescaped = %x20-21 / %x23-5B / %x5D-10FFFF` -/
def IsUnescaped (c : Char) : Prop := 0x20 ≤ c.toNat ∧ c.toNat ≠ 0x22 ∧ c.toNat ≠ 0x5C

inductive StringChar where
  | unescaped (c : Char) (h : IsUnescaped c)
  | escape (kind : Escape)
  | unicode (d₁ d₂ d₃ d₄ : HexDigit)

def StringChar.bytes : StringChar → Bytes
  | .unescaped c _ => String.utf8EncodeChar c
  | .escape kind => [0x5C, kind.letter]
  | .unicode d₁ d₂ d₃ d₄ => [0x5C, 0x75, d₁.byte, d₂.byte, d₃.byte, d₄.byte]

/-- The code point, or the half of a surrogate pair, that a character writes. -/
def StringChar.unit : StringChar → Utf8Codepoint
  | .unescaped c _ => c.toNat
  | .escape kind => kind.codepoint
  | .unicode d₁ d₂ d₃ d₄ => ((d₁.value * 16 + d₂.value) * 16 + d₃.value) * 16 + d₄.value

/-- `string = quotation-mark *char quotation-mark` -/
structure StringText where
  chars : List StringChar

namespace StringText

/-- The characters and the closing quotation mark. -/
def tailBytes (chars : List StringChar) : Bytes := chars.flatMap StringChar.bytes ++ [0x22]

def bytes (string : StringText) : Bytes := 0x22 :: tailBytes string.chars

def units (string : StringText) : JsonString := string.chars.map StringChar.unit

end StringText

/-- The first half of a surrogate pair. -/
def IsHigh (unit : Utf8Codepoint) : Prop := 0xD800 ≤ unit ∧ unit ≤ 0xDBFF

/-- The second half of a surrogate pair. -/
def IsLow (unit : Utf8Codepoint) : Prop := 0xDC00 ≤ unit ∧ unit ≤ 0xDFFF

instance (unit : Utf8Codepoint) : Decidable (IsHigh unit) := inferInstanceAs (Decidable (_ ∧ _))

instance (unit : Utf8Codepoint) : Decidable (IsLow unit) := inferInstanceAs (Decidable (_ ∧ _))

/-- A surrogate pair stands for one code point beyond the basic plane. -/
def joinSurrogates : JsonString → JsonString
  | [] => []
  | [unit] => [unit]
  | high :: low :: rest =>
    if IsHigh high ∧ IsLow low then
      (0x10000 + (high - 0xD800) * 0x400 + (low - 0xDC00)) :: joinSurrogates rest
    else high :: joinSurrogates (low :: rest)

/-- The code points of a string, with its escapes resolved. -/
def StringText.value (string : StringText) : JsonString := joinSurrogates string.units

/-- No first half is directly followed by a second half. -/
def NoPairs (units : JsonString) : Prop :=
  units.IsChain fun high low => ¬ (IsHigh high ∧ IsLow low)

theorem joinSurrogates_length (units : JsonString) :
    (joinSurrogates units).length ≤ units.length := by
  induction units using joinSurrogates.induct with
  | case1 => rw [joinSurrogates]
  | case2 unit => rw [joinSurrogates]
  | case3 high low rest hpair ih =>
    rw [joinSurrogates, if_pos hpair]
    simp only [List.length_cons]
    omega
  | case4 high low rest hpair ih =>
    rw [joinSurrogates, if_neg hpair]
    simp only [List.length_cons] at ih ⊢
    omega

/-- **Only strings with a surrogate pair change.** -/
theorem joinSurrogates_eq_self {units : JsonString} :
    joinSurrogates units = units ↔ NoPairs units := by
  induction units using joinSurrogates.induct with
  | case1 => simp [joinSurrogates, NoPairs]
  | case2 unit => simp [joinSurrogates, NoPairs]
  | case3 high low rest hpair ih =>
    have hshort := joinSurrogates_length rest
    rw [joinSurrogates, if_pos hpair, NoPairs, List.isChain_cons_cons]
    constructor
    · intro h
      have hlength := congrArg List.length h
      simp only [List.length_cons] at hlength
      omega
    · intro h
      exact absurd hpair h.1
  | case4 high low rest hpair ih =>
    rw [joinSurrogates, if_neg hpair, List.cons.injEq, ih, NoPairs, NoPairs, List.isChain_cons_cons]
    simp [hpair]

/-! ## Values -/

mutual

/-- `value = false / null / true / object / array / number / string` -/
inductive ValueText where
  | null
  | boolean (value : Bool)
  | number (number : NumberText)
  | string (string : StringText)
  | emptyArray (opening closing : Structural)
  | array (opening : Structural) (first : ValueText) (more : MoreValues) (closing : Structural)
  | emptyObject (opening closing : Structural)
  | object (opening : Structural) (key : StringText) (colon : Structural) (first : ValueText)
      (more : MoreMembers) (closing : Structural)

/-- `*( value-separator value )` -/
inductive MoreValues where
  | nil
  | cons (comma : Structural) (value : ValueText) (more : MoreValues)

/-- `*( value-separator member )` -/
inductive MoreMembers where
  | nil
  | cons (comma : Structural) (key : StringText) (colon : Structural) (value : ValueText)
      (more : MoreMembers)

end

mutual

def ValueText.bytes : ValueText → Bytes
  | .null => ascii "null"
  | .boolean value => if value then ascii "true" else ascii "false"
  | .number number => number.bytes
  | .string string => string.bytes
  | .emptyArray opening closing => opening.bytes 0x5B ++ closing.bytes 0x5D
  | .array opening first more closing =>
    opening.bytes 0x5B ++ (first.bytes ++ (more.bytes ++ closing.bytes 0x5D))
  | .emptyObject opening closing => opening.bytes 0x7B ++ closing.bytes 0x7D
  | .object opening key colon first more closing =>
    opening.bytes 0x7B ++ (key.bytes ++ (colon.bytes 0x3A ++
      (first.bytes ++ (more.bytes ++ closing.bytes 0x7D))))

def MoreValues.bytes : MoreValues → Bytes
  | .nil => []
  | .cons comma value more => comma.bytes 0x2C ++ (value.bytes ++ more.bytes)

def MoreMembers.bytes : MoreMembers → Bytes
  | .nil => []
  | .cons comma key colon value more =>
    comma.bytes 0x2C ++ (key.bytes ++ (colon.bytes 0x3A ++ (value.bytes ++ more.bytes)))

end

/-- How numbers and strings are read. -/
structure Reading where
  number : NumberText → ℚ
  string : StringText → JsonString

/-- What the grammar assigns. -/
def Reading.grammar : Reading := ⟨NumberText.value, StringText.value⟩

mutual

/-- The value of a text: arrays in order, objects by their members. -/
def ValueText.eval (reading : Reading) : ValueText → JsonValue
  | .null => .null
  | .boolean value => .boolean value
  | .number number => .number (reading.number number)
  | .string string => .string (reading.string string)
  | .emptyArray _ _ => .array []
  | .array _ first more _ => .array (first.eval reading :: more.eval reading)
  | .emptyObject _ _ => .object []
  | .object _ key _ first more _ =>
    .object ((reading.string key, first.eval reading) :: more.eval reading)

def MoreValues.eval (reading : Reading) : MoreValues → JsonArray
  | .nil => []
  | .cons _ value more => value.eval reading :: more.eval reading

def MoreMembers.eval (reading : Reading) : MoreMembers → JsonObject
  | .nil => []
  | .cons _ key _ value more => (reading.string key, value.eval reading) :: more.eval reading

end

mutual

def ValueText.numbers : ValueText → List NumberText
  | .number number => [number]
  | .array _ first more _ => first.numbers ++ more.numbers
  | .object _ _ _ first more _ => first.numbers ++ more.numbers
  | _ => []

def MoreValues.numbers : MoreValues → List NumberText
  | .nil => []
  | .cons _ value more => value.numbers ++ more.numbers

def MoreMembers.numbers : MoreMembers → List NumberText
  | .nil => []
  | .cons _ _ _ value more => value.numbers ++ more.numbers

end

mutual

/-- The strings of a value, keys included. -/
def ValueText.strings : ValueText → List StringText
  | .string string => [string]
  | .array _ first more _ => first.strings ++ more.strings
  | .object _ key _ first more _ => key :: (first.strings ++ more.strings)
  | _ => []

def MoreValues.strings : MoreValues → List StringText
  | .nil => []
  | .cons _ value more => value.strings ++ more.strings

def MoreMembers.strings : MoreMembers → List StringText
  | .nil => []
  | .cons _ key _ value more => key :: (value.strings ++ more.strings)

end

def MoreMembers.keys : MoreMembers → List StringText
  | .nil => []
  | .cons _ key _ _ more => key :: more.keys

mutual

/-- No object has two members with one key. -/
def ValueText.DistinctKeys (reading : Reading) : ValueText → Prop
  | .array _ first more _ => first.DistinctKeys reading ∧ more.DistinctKeys reading
  | .object _ key _ first more _ =>
    ((key :: more.keys).map reading.string).Nodup ∧ first.DistinctKeys reading ∧
      more.DistinctKeys reading
  | _ => True

def MoreValues.DistinctKeys (reading : Reading) : MoreValues → Prop
  | .nil => True
  | .cons _ value more => value.DistinctKeys reading ∧ more.DistinctKeys reading

def MoreMembers.DistinctKeys (reading : Reading) : MoreMembers → Prop
  | .nil => True
  | .cons _ _ _ value more => value.DistinctKeys reading ∧ more.DistinctKeys reading

end

/-- `JSON-text = ws value ws` -/
structure JsonText where
  before : List Ws
  value : ValueText
  after : List Ws

def JsonText.bytes (text : JsonText) : Bytes :=
  spaces text.before ++ (text.value.bytes ++ spaces text.after)

/-! ## Two readings of one text -/

section Readings

variable {reading reading' : Reading}

/-- Two readings agree on some numbers and some strings. -/
def Reading.Agree (reading reading' : Reading) (numbers : List NumberText)
    (strings : List StringText) : Prop :=
  (∀ number ∈ numbers, reading.number number = reading'.number number) ∧
    ∀ string ∈ strings, reading.string string = reading'.string string

theorem Reading.agree_append {numbers numbers' : List NumberText}
    {strings strings' : List StringText} :
    reading.Agree reading' (numbers ++ numbers') (strings ++ strings') ↔
      reading.Agree reading' numbers strings ∧ reading.Agree reading' numbers' strings' := by
  simp only [Agree, List.forall_mem_append]
  tauto

theorem Reading.agree_cons_append {numbers numbers' : List NumberText}
    {strings strings' : List StringText} {key : StringText} :
    reading.Agree reading' (numbers ++ numbers') (key :: (strings ++ strings')) ↔
      reading.string key = reading'.string key ∧
        reading.Agree reading' numbers strings ∧ reading.Agree reading' numbers' strings' := by
  simp only [Agree, List.forall_mem_append, List.forall_mem_cons]
  tauto

mutual

/-- **The value depends on how the numbers and strings of the text are read, and on nothing
else.** -/
theorem ValueText.eval_eq_iff : ∀ value : ValueText,
    value.eval reading = value.eval reading' ↔
      reading.Agree reading' value.numbers value.strings
  | .null => by simp [ValueText.eval, ValueText.numbers, ValueText.strings, Reading.Agree]
  | .boolean _ => by simp [ValueText.eval, ValueText.numbers, ValueText.strings, Reading.Agree]
  | .number _ => by simp [ValueText.eval, ValueText.numbers, ValueText.strings, Reading.Agree]
  | .string _ => by simp [ValueText.eval, ValueText.numbers, ValueText.strings, Reading.Agree]
  | .emptyArray _ _ => by simp [ValueText.eval, ValueText.numbers, ValueText.strings, Reading.Agree]
  | .array _ first more _ => by
    rw [ValueText.numbers, ValueText.strings, Reading.agree_append, ← first.eval_eq_iff,
      ← more.eval_eq_iff]
    simp [ValueText.eval]
  | .emptyObject _ _ => by
    simp [ValueText.eval, ValueText.numbers, ValueText.strings, Reading.Agree]
  | .object _ key _ first more _ => by
    rw [ValueText.numbers, ValueText.strings, Reading.agree_cons_append, ← first.eval_eq_iff,
      ← more.eval_eq_iff]
    simp [ValueText.eval, and_assoc]

theorem MoreValues.eval_eq_iff : ∀ more : MoreValues,
    more.eval reading = more.eval reading' ↔ reading.Agree reading' more.numbers more.strings
  | .nil => by simp [MoreValues.eval, MoreValues.numbers, MoreValues.strings, Reading.Agree]
  | .cons _ value more => by
    rw [MoreValues.numbers, MoreValues.strings, Reading.agree_append, ← value.eval_eq_iff,
      ← more.eval_eq_iff]
    simp [MoreValues.eval]

theorem MoreMembers.eval_eq_iff : ∀ more : MoreMembers,
    more.eval reading = more.eval reading' ↔ reading.Agree reading' more.numbers more.strings
  | .nil => by simp [MoreMembers.eval, MoreMembers.numbers, MoreMembers.strings, Reading.Agree]
  | .cons _ key _ value more => by
    rw [MoreMembers.numbers, MoreMembers.strings, Reading.agree_cons_append, ← value.eval_eq_iff,
      ← more.eval_eq_iff]
    simp [MoreMembers.eval, and_assoc]

end

@[simp] theorem MoreMembers.eval_keys (reading : Reading) (more : MoreMembers) :
    JsonObject.keys (more.eval reading) = more.keys.map reading.string := by
  match more with
  | .nil => rfl
  | .cons _ key _ value more =>
    have ih := MoreMembers.eval_keys reading more
    simp only [JsonObject.keys] at ih ⊢
    simp [eval, keys, ih]

mutual

/-- The strings of the value are those of the text. -/
theorem ValueText.eval_strings (reading : Reading) : ∀ value : ValueText,
    (value.eval reading).strings = value.strings.map reading.string
  | .null => rfl
  | .boolean _ => rfl
  | .number _ => rfl
  | .string _ => rfl
  | .emptyArray _ _ => rfl
  | .array _ first more _ => by
    rw [ValueText.eval, JsonValue.strings, JsonArray.strings, first.eval_strings,
      more.eval_strings, ValueText.strings, List.map_append]
  | .emptyObject _ _ => rfl
  | .object _ key _ first more _ => by
    rw [ValueText.eval, JsonValue.strings, JsonObject.strings, first.eval_strings,
      more.eval_strings, ValueText.strings, List.map_cons, List.map_append]

theorem MoreValues.eval_strings (reading : Reading) : ∀ more : MoreValues,
    JsonArray.strings (more.eval reading) = more.strings.map reading.string
  | .nil => rfl
  | .cons _ value more => by
    rw [MoreValues.eval, JsonArray.strings, value.eval_strings, more.eval_strings,
      MoreValues.strings, List.map_append]

theorem MoreMembers.eval_strings (reading : Reading) : ∀ more : MoreMembers,
    JsonObject.strings (more.eval reading) = more.strings.map reading.string
  | .nil => rfl
  | .cons _ key _ value more => by
    rw [MoreMembers.eval, JsonObject.strings, value.eval_strings, more.eval_strings,
      MoreMembers.strings, List.map_cons, List.map_append]

end

/-- The second reading tells apart the strings that the first one tells apart. -/
def Reading.FinerOn (reading' reading : Reading) (strings : List StringText) : Prop :=
  ∀ key ∈ strings, ∀ key' ∈ strings,
    reading'.string key = reading'.string key' → reading.string key = reading.string key'

theorem Reading.FinerOn.subset {strings strings' : List StringText}
    (h : reading'.FinerOn reading strings) (hsubset : strings' ⊆ strings) :
    reading'.FinerOn reading strings' := by
  intro key hkey key' hkey'
  exact h key (hsubset hkey) key' (hsubset hkey')

theorem Reading.FinerOn.nodup {keys : List StringText} (h : reading'.FinerOn reading keys)
    (hkeys : (keys.map reading.string).Nodup) : (keys.map reading'.string).Nodup := by
  rw [List.Nodup, List.pairwise_map] at hkeys ⊢
  apply hkeys.imp_of_mem
  intro key key' hkey hkey' hne heq
  exact hne (h key hkey key' hkey' heq)

theorem MoreMembers.keys_subset : ∀ more : MoreMembers, more.keys ⊆ more.strings
  | .nil => List.Subset.refl []
  | .cons _ key _ _ more => by
    have ih := more.keys_subset
    intro key' hkey'
    rw [keys, List.mem_cons] at hkey'
    rw [strings, List.mem_cons, List.mem_append]
    rcases hkey' with rfl | hmem
    · exact Or.inl rfl
    · exact Or.inr (Or.inr (ih hmem))

mutual

/-- Keys stay distinct under a finer reading. -/
theorem ValueText.DistinctKeys.mono : ∀ {value : ValueText},
    reading'.FinerOn reading value.strings → value.DistinctKeys reading →
      value.DistinctKeys reading'
  | .null, _, h => h
  | .boolean _, _, h => h
  | .number _, _, h => h
  | .string _, _, h => h
  | .emptyArray _ _, _, h => h
  | .array _ first more _, hfiner, ⟨hfirst, hmore⟩ =>
    ⟨hfirst.mono (hfiner.subset (List.subset_append_left _ _)),
      hmore.mono (hfiner.subset (List.subset_append_right _ _))⟩
  | .emptyObject _ _, _, h => h
  | .object _ key _ first more _, hfiner, ⟨hdistinct, hfirst, hmore⟩ => by
    have hbehind := hfiner.subset (List.subset_cons_self key _)
    have hkeys : key :: more.keys ⊆ key :: (first.strings ++ more.strings) :=
      List.cons_subset_cons key (List.Subset.trans more.keys_subset (List.subset_append_right _ _))
    exact ⟨(hfiner.subset hkeys).nodup hdistinct,
      hfirst.mono (hbehind.subset (List.subset_append_left _ _)),
      hmore.mono (hbehind.subset (List.subset_append_right _ _))⟩

theorem MoreValues.DistinctKeys.mono : ∀ {more : MoreValues},
    reading'.FinerOn reading more.strings → more.DistinctKeys reading →
      more.DistinctKeys reading'
  | .nil, _, h => h
  | .cons _ _ _, hfiner, ⟨hvalue, hmore⟩ =>
    ⟨hvalue.mono (hfiner.subset (List.subset_append_left _ _)),
      hmore.mono (hfiner.subset (List.subset_append_right _ _))⟩

theorem MoreMembers.DistinctKeys.mono : ∀ {more : MoreMembers},
    reading'.FinerOn reading more.strings → more.DistinctKeys reading →
      more.DistinctKeys reading'
  | .nil, _, h => h
  | .cons _ key _ _ _, hfiner, ⟨hvalue, hmore⟩ => by
    have hbehind := hfiner.subset (List.subset_cons_self key _)
    exact ⟨hvalue.mono (hbehind.subset (List.subset_append_left _ _)),
      hmore.mono (hbehind.subset (List.subset_append_right _ _))⟩

end

mutual

/-- The value has distinct keys when its text has them. -/
theorem ValueText.DistinctKeys.eval : ∀ {value : ValueText}, value.DistinctKeys reading →
    (value.eval reading).DistinctKeys
  | .null, _ => trivial
  | .boolean _, _ => trivial
  | .number _, _ => trivial
  | .string _, _ => trivial
  | .emptyArray _ _, _ => trivial
  | .array _ _ _ _, ⟨hfirst, hmore⟩ => ⟨hfirst.eval, hmore.eval⟩
  | .emptyObject _ _, _ => ⟨List.nodup_nil, trivial⟩
  | .object _ key _ _ more _, ⟨hkeys, hfirst, hmore⟩ => by
    refine ⟨?_, hfirst.eval, hmore.eval⟩
    have hmoreKeys := more.eval_keys reading
    simp only [JsonObject.keys] at hmoreKeys ⊢
    rw [List.map_cons, hmoreKeys]
    exact hkeys

theorem MoreValues.DistinctKeys.eval : ∀ {more : MoreValues}, more.DistinctKeys reading →
    JsonArray.DistinctKeys (more.eval reading)
  | .nil, _ => trivial
  | .cons _ _ _, ⟨hvalue, hmore⟩ => ⟨hvalue.eval, hmore.eval⟩

theorem MoreMembers.DistinctKeys.eval : ∀ {more : MoreMembers}, more.DistinctKeys reading →
    JsonObject.DistinctKeys (more.eval reading)
  | .nil, _ => trivial
  | .cons _ _ _ _ _, ⟨hvalue, hmore⟩ => ⟨hvalue.eval, hmore.eval⟩

end

end Readings

/-! ## The encoding of a text -/

theorem isUtf8_spaces (ws : List Ws) : Lib.IsUtf8 (spaces ws) := by
  apply Lib.isUtf8_ascii
  intro byte hbyte
  obtain ⟨w, -, rfl⟩ := List.mem_map.1 hbyte
  cases w <;> decide

theorem Structural.isUtf8 (around : Structural) {character : UInt8} (h : character < 0x80) :
    Lib.IsUtf8 (around.bytes character) := by
  rw [bytes, ← List.singleton_append]
  have hcharacter : Lib.IsUtf8 [character] := Lib.isUtf8_ascii (by simp [h])
  exact (isUtf8_spaces _).append (hcharacter.append (isUtf8_spaces _))

theorem digitBytes_ascii (digits : List Digit) : ∀ byte ∈ digitBytes digits, byte < 0x80 := by
  have hdigit : ∀ digit : Digit, digitByte digit < 0x80 := by decide
  intro byte hbyte
  obtain ⟨digit, -, rfl⟩ := List.mem_map.1 hbyte
  exact hdigit digit

theorem NumberText.isUtf8 (number : NumberText) : Lib.IsUtf8 number.bytes := by
  have hint : Lib.IsUtf8 number.int.bytes := by
    cases number.int with
    | zero => exact Lib.IsAscii.isUtf8 (by decide)
    | digits first more => exact Lib.isUtf8_ascii (digitBytes_ascii (first.succ :: more))
  have hfrac : ∀ frac : FracText, Lib.IsUtf8 frac.bytes := by
    intro frac
    have hpoint : Lib.IsUtf8 [0x2E] := Lib.IsAscii.isUtf8 (by decide)
    exact hpoint.append (Lib.isUtf8_ascii (digitBytes_ascii _))
  have hexp : ∀ exp : ExpText, Lib.IsUtf8 exp.bytes := by
    intro exp
    have hletter : ∀ upper : Bool, Lib.IsUtf8 [if upper then 0x45 else 0x65] := by
      intro upper
      cases upper <;> exact Lib.IsAscii.isUtf8 (by decide)
    have hsign : ∀ sign : Option Bool, Lib.IsUtf8 (signBytes sign) := by
      rintro (_ | _ | _) <;> exact Lib.IsAscii.isUtf8 (by decide)
    exact (hletter exp.upper).append ((hsign exp.sign).append
      (Lib.isUtf8_ascii (digitBytes_ascii _)))
  rw [bytes]
  apply Lib.IsUtf8.append
  · cases number.minus <;> exact Lib.IsAscii.isUtf8 (by decide)
  apply hint.append
  apply Lib.IsUtf8.append
  · cases number.frac with
    | none => exact Lib.isUtf8_nil
    | some frac => exact hfrac frac
  · cases number.exp with
    | none => exact Lib.isUtf8_nil
    | some exp => exact hexp exp

theorem HexDigit.byte_ascii (digit : HexDigit) : digit.byte < 0x80 := by
  have hall : ∀ (value : Fin 16) (upper : Bool), HexDigit.byte ⟨value, upper⟩ < 0x80 := by decide
  exact hall digit.value digit.upper

theorem StringChar.isUtf8 (char : StringChar) : Lib.IsUtf8 char.bytes := by
  cases char with
  | unescaped c hc => exact Lib.isUtf8_char c
  | escape kind =>
    apply Lib.IsAscii.isUtf8
    cases kind <;> decide
  | unicode d₁ d₂ d₃ d₄ =>
    apply Lib.isUtf8_ascii
    simp [bytes, HexDigit.byte_ascii]

theorem StringText.isUtf8 (string : StringText) : Lib.IsUtf8 string.bytes := by
  have hquote : Lib.IsUtf8 [0x22] := Lib.IsAscii.isUtf8 (by decide)
  have hchars : ∀ chars : List StringChar, Lib.IsUtf8 (chars.flatMap StringChar.bytes) := by
    intro chars
    induction chars with
    | nil => exact Lib.isUtf8_nil
    | cons char chars ih => exact char.isUtf8.append ih
  exact hquote.append ((hchars string.chars).append hquote)

mutual

/-- **A text of the grammar is well-formed UTF-8.** -/
theorem ValueText.isUtf8 : ∀ value : ValueText, Lib.IsUtf8 value.bytes
  | .null => Lib.IsAscii.isUtf8 (by decide)
  | .boolean value => by cases value <;> exact Lib.IsAscii.isUtf8 (by decide)
  | .number number => number.isUtf8
  | .string string => string.isUtf8
  | .emptyArray opening closing =>
    (opening.isUtf8 (by decide)).append (closing.isUtf8 (by decide))
  | .array opening first more closing =>
    (opening.isUtf8 (by decide)).append
      (first.isUtf8.append (more.isUtf8.append (closing.isUtf8 (by decide))))
  | .emptyObject opening closing =>
    (opening.isUtf8 (by decide)).append (closing.isUtf8 (by decide))
  | .object opening key colon first more closing =>
    (opening.isUtf8 (by decide)).append (key.isUtf8.append ((colon.isUtf8 (by decide)).append
      (first.isUtf8.append (more.isUtf8.append (closing.isUtf8 (by decide))))))

theorem MoreValues.isUtf8 : ∀ more : MoreValues, Lib.IsUtf8 more.bytes
  | .nil => Lib.isUtf8_nil
  | .cons comma value more =>
    (comma.isUtf8 (by decide)).append (value.isUtf8.append more.isUtf8)

theorem MoreMembers.isUtf8 : ∀ more : MoreMembers, Lib.IsUtf8 more.bytes
  | .nil => Lib.isUtf8_nil
  | .cons comma key colon value more =>
    (comma.isUtf8 (by decide)).append (key.isUtf8.append
      ((colon.isUtf8 (by decide)).append (value.isUtf8.append more.isUtf8)))

end

theorem JsonText.isUtf8 (text : JsonText) : Lib.IsUtf8 text.bytes :=
  (isUtf8_spaces _).append (text.value.isUtf8.append (isUtf8_spaces _))

end SimpleServer.Json
