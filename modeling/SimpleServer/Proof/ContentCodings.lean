import SimpleServer.Lib.StableSort
import SimpleServer.Proof.CodingWeights

/-!
# The content coding of an answer

The entries of the header are sorted by ascending weight and the first one that the server can serve
is taken: the least wanted one. It is the one that is wanted most only where no entry for another
coding outweighs it; if no coding is listed twice, and '*' is not listed, only where all are wanted
equally.

* `selectCompression_first`: where the loop stops.
* `mostWanted_iff`: the entries of what is wanted most, compared one by one with the others.
* `ListedPlainly.leastUnbeaten_iff`: what this comes to if no coding is listed twice.
* `contentCoding_iff`: **when the coding is one that is wanted most.**
-/

namespace SimpleServer.Http

open Lib Hpack

variable {Uri : Type} {p : HeadParser Uri} {blank : UInt8 → Prop} [DecidablePred blank]
variable {support : CompressionType → Bool} {entries : List CompressionEntry}
variable {listed : List ListedCoding} {entry : CompressionEntry} {coding : CompressionType}

/-! ## What is wanted -/

/-- The coding that an entry names: `identity` is no coding at all, and '*' names nothing. -/
def codingNamed : CompressionValue → Option CompressionType
  | .noEncoding => some .none
  | .allEncodings => none
  | .normalEncoding compression => some compression

/-- An entry stands for a coding by its name, or by '*' if it is not named. -/
def Gives (listed : List ListedCoding) (entry : ListedCoding) (coding : CompressionType) : Prop :=
  codingNamed entry.value = some coding ∨
    codingNamed entry.value = none ∧ ∀ other ∈ listed, codingNamed other.value ≠ some coding

/-- An entry for a supported coding or `identity`. -/
def Served (support : CompressionType → Bool) (value : CompressionValue) : Prop :=
  ∃ coding, codingNamed value = some coding ∧ isCompressionSupported support coding

/-- An entry with a weight above 0: no other entry that can be served has a greater weight, and none
with the same weight comes earlier. -/
def MostWanted (support : CompressionType → Bool) (listed : List ListedCoding)
    (entry : ListedCoding) : Prop :=
  ∃ before after, listed = before ++ entry :: after ∧ 0 < entry.weight ∧
    (∀ other ∈ before, Served support other.value → other.weight < entry.weight) ∧
      ∀ other ∈ after, Served support other.value → other.weight ≤ entry.weight

/-- No listed coding that can be served is wanted with a weight above 0. -/
def NothingWanted (support : CompressionType → Bool) (listed : List ListedCoding) : Prop :=
  ∀ entry ∈ listed, Served support entry.value → entry.weight ≤ 0

/-- The coding is one that the header wants most, or there is none and nothing is wanted. -/
def ChosenWell (support : CompressionType → Bool) (listed : List ListedCoding)
    (coding : CompressionType) : Prop :=
  (∃ most, MostWanted support listed most ∧ Gives listed most coding) ∨
    coding = .none ∧ NothingWanted support listed

/-! ## What is chosen -/

/-- The loop stops at an entry: at a coding that can be served, or at '*'. -/
def Stops (support : CompressionType → Bool) (entry : CompressionEntry) : Prop :=
  Served support entry.value ∨ entry.value = .allEncodings

/-- The coding that an entry selects. -/
def selects (support : CompressionType → Bool) (entry : CompressionEntry) : CompressionType :=
  match entry.value with
  | .noEncoding => .none
  | .allEncodings => getBestCompressionThatIsSupported support
  | .normalEncoding compression => compression

theorem stops_iff : Stops support entry ↔
    ∀ compression, entry.value = .normalEncoding compression →
      isCompressionSupported support compression = true := by
  obtain ⟨value, weight⟩ := entry
  cases value with
  | noEncoding => simp [Stops, Served, codingNamed, isCompressionSupported]
  | allEncodings => simp [Stops]
  | normalEncoding compression => simp [Stops, Served, codingNamed]

instance : DecidablePred (Stops support) := fun entry =>
  match hvalue : entry.value with
  | .noEncoding => .isTrue (stops_iff.2 fun compression h => by rw [hvalue] at h; cases h)
  | .allEncodings => .isTrue (.inr hvalue)
  | .normalEncoding compression =>
    decidable_of_iff (isCompressionSupported support compression = true) (by
      rw [stops_iff, hvalue]
      constructor
      · rintro h compression' hsame
        cases hsame
        exact h
      · intro h
        exact h compression rfl)

/-- **Where the loop stops.** -/
theorem selectCompression_first (entries : List CompressionEntry) :
    selectCompression support entries =
      ((entries.find? fun entry => Stops support entry).map (selects support)).getD .none := by
  induction entries with
  | nil => rfl
  | cons entry entries ih =>
    obtain ⟨value, weight⟩ := entry
    rw [selectCompression, List.find?_cons]
    cases value with
    | noEncoding =>
      have hstops : Stops support ⟨.noEncoding, weight⟩ := stops_iff.2 nofun
      simp [hstops, selects]
    | allEncodings =>
      have hstops : Stops support ⟨.allEncodings, weight⟩ := .inr rfl
      simp [hstops, selects]
    | normalEncoding compression =>
      by_cases hsupported : isCompressionSupported support compression = true
      · have hstops : Stops support ⟨.normalEncoding compression, weight⟩ := by
          rw [stops_iff]
          rintro compression' hsame
          cases hsame
          exact hsupported
        simp [hstops, selects, hsupported]
      · have hstops : ¬ Stops support ⟨.normalEncoding compression, weight⟩ := by
          rw [stops_iff]
          exact fun h => hsupported (h compression rfl)
        simp [hstops, hsupported, ih]

/-- The entry that may come first: the first one of the least weight, or any one where the weights
cannot be compared. -/
def MayStop (support : CompressionType → Bool) (entries : List CompressionEntry)
    (entry : CompressionEntry) : Prop :=
  entry ∈ entries ∧ Stops support entry ∧
    (Consistent compareFunctionEntries entries →
      FirstLeast compareFunctionEntries (Stops support) entries entry)

theorem mayStop_of_find {sort : List CompressionEntry → List CompressionEntry}
    (hsort : IsStableSort compareFunctionEntries sort)
    (hfind : (sort entries).find? (fun entry => Stops support entry) = some entry) :
    MayStop support entries entry := by
  refine ⟨?_, ?_, fun hconsistent => hsort.firstLeast hconsistent hfind⟩
  · exact (hsort.perm entries).mem_iff.1 (List.mem_of_find?_eq_some hfind)
  · simpa using List.find?_some hfind

/-- **What sorting and the loop come to**: an entry that may come first is selected. -/
theorem forall_sort_iff {good : CompressionType → Prop} (entries : List CompressionEntry) :
    (∀ sort, IsStableSort compareFunctionEntries sort →
      good (selectCompression support (sort entries))) ↔
      (∀ entry, MayStop support entries entry → good (selects support entry)) ∧
        ((∀ entry ∈ entries, ¬ Stops support entry) → good .none) := by
  constructor
  · intro h
    constructor
    · rintro entry ⟨hmem, hstops, hfirst⟩
      by_cases hconsistent : Consistent compareFunctionEntries entries
      · have hsort := stableSort_isStableSort compareFunctionEntries
          fun l : List CompressionEntry => List.Perm.refl l
        have hgood := h _ hsort
        rw [selectCompression_first] at hgood
        cases hfind : (stableSort compareFunctionEntries (fun l => l) entries).find?
          fun entry => Stops support entry with
        | none =>
          exact absurd hstops (hsort.find?_eq_none_iff.1 hfind entry hmem)
        | some found =>
          rw [hfind] at hgood
          rw [(hfirst hconsistent).unique hconsistent (hsort.firstLeast hconsistent hfind)]
          exact hgood
      · obtain ⟨sort, hsort, hhead⟩ := exists_stableSort_first hconsistent hmem
        have hgood := h sort hsort
        obtain ⟨rest, hrest⟩ := List.head?_eq_some_iff.1 hhead
        rw [selectCompression_first, hrest, List.find?_cons_of_pos (by simpa using hstops)] at hgood
        exact hgood
    · intro hnone
      have hsort := stableSort_isStableSort compareFunctionEntries fun l : List CompressionEntry =>
        List.Perm.refl l
      have hgood := h _ hsort
      rw [selectCompression_first, hsort.find?_eq_none_iff.2 hnone] at hgood
      exact hgood
  · rintro ⟨hstop, hnone⟩ sort hsort
    rw [selectCompression_first]
    cases hfind : (sort entries).find? fun entry => Stops support entry with
    | none => exact hnone (hsort.find?_eq_none_iff.1 hfind)
    | some found => exact hstop found (mayStop_of_find hsort hfind)

/-! ## The result -/

/-- The entries for a coding, or those of '*' for `none`, are not outweighed: one of them has a
weight above 0, and an entry for another coding that can be served weighs less than a later one of
them, or no more than an earlier one. -/
structure Unbeaten (support : CompressionType → Bool) (listed : List ListedCoding)
    (name : Option CompressionType) : Prop where
  wanted : ∃ entry ∈ listed, codingNamed entry.value = name ∧ 0 < entry.weight
  others : ∀ before other after, listed = before ++ other :: after → Served support other.value →
    codingNamed other.value ≠ name →
      (∃ entry ∈ before, codingNamed entry.value = name ∧ other.weight ≤ entry.weight) ∨
        ∃ entry ∈ after, codingNamed entry.value = name ∧ other.weight < entry.weight

/-- **What is wanted most** is what no entry for another coding outweighs. -/
theorem mostWanted_iff {name : Option CompressionType} :
    (∃ most, MostWanted support listed most ∧ codingNamed most.value = name) ↔
      Unbeaten support listed name := by
  constructor
  · rintro ⟨most, ⟨first, last, rfl, hpositive, hfirst, hlast⟩, hname⟩
    refine ⟨⟨most, by simp, hname, hpositive⟩, ?_⟩
    intro before other after hsplit hserved hother
    rcases append_cons_cases hsplit with rfl | ⟨middle, rfl, rfl⟩ | ⟨middle, rfl, rfl⟩
    · exact absurd hname hother
    · exact .inl ⟨most, by simp, hname, hlast other (by simp) hserved⟩
    · exact .inr ⟨most, by simp, hname, hfirst other (by simp) hserved⟩
  · rintro ⟨⟨wanted, hwanted, hkind, hpositive⟩, hothers⟩
    obtain ⟨before, most, after, rfl, hname, hbefore, hafter⟩ :=
      exists_first_greatest ListedCoding.weight (fun entry => codingNamed entry.value = name)
        ⟨wanted, hwanted, hkind⟩
    have hgreatest : ∀ entry ∈ before ++ most :: after, codingNamed entry.value = name →
        entry.weight ≤ most.weight := by
      intro entry hentry hsame
      rcases List.mem_append.1 hentry with hentry | hentry
      · exact (hbefore entry hentry hsame).le
      · rcases List.mem_cons.1 hentry with rfl | hentry
        · exact le_rfl
        · exact hafter entry hentry hsame
    refine ⟨most, ⟨before, after, rfl, ?_, ?_, ?_⟩, hname⟩
    · exact hpositive.trans_le (hgreatest wanted hwanted hkind)
    · intro other hmem hserved
      by_cases hsame : codingNamed other.value = name
      · exact hbefore other hmem hsame
      obtain ⟨first, last, rfl⟩ := List.append_of_mem hmem
      rcases hothers first other (last ++ most :: after) (by simp) hserved hsame with
        ⟨entry, hentry, hentryName, hle⟩ | ⟨entry, hentry, hentryName, hless⟩
      · exact hle.trans_lt (hbefore entry (by simp [hentry]) hentryName)
      · refine hless.trans_le (hgreatest entry ?_ hentryName)
        rw [List.append_assoc, List.cons_append]
        exact List.mem_append_right _ (List.mem_cons_of_mem _ hentry)
    · intro other hmem hserved
      by_cases hsame : codingNamed other.value = name
      · exact hafter other hmem hsame
      obtain ⟨first, last, rfl⟩ := List.append_of_mem hmem
      rcases hothers (before ++ most :: first) other last (by simp) hserved hsame with
        ⟨entry, hentry, hentryName, hle⟩ | ⟨entry, hentry, hentryName, hless⟩
      · refine hle.trans (hgreatest entry ?_ hentryName)
        rcases List.mem_append.1 hentry with hin | hin
        · exact List.mem_append_left _ hin
        · rw [← List.cons_append, ← List.append_assoc]
          exact List.mem_append_left _ (List.mem_append_right _ hin)
      · exact hless.le.trans (hgreatest entry (by simp [hentry]) hentryName)

/-- The entries for a coding, or those of '*' if it is not named, are not outweighed; or nothing is
wanted, and there is no coding. -/
def CoveredUnbeaten (support : CompressionType → Bool) (listed : List ListedCoding)
    (coding : CompressionType) : Prop :=
  Unbeaten support listed (some coding) ∨
    ((∀ other ∈ listed, codingNamed other.value ≠ some coding) ∧ Unbeaten support listed none) ∨
      coding = .none ∧ NothingWanted support listed

theorem chosenWell_iff :
    ChosenWell support listed coding ↔ CoveredUnbeaten support listed coding := by
  unfold ChosenWell CoveredUnbeaten
  rw [← mostWanted_iff, ← mostWanted_iff]
  constructor
  · rintro (⟨most, hmost, hname | ⟨hall, hnot⟩⟩ | hnothing)
    · exact .inl ⟨most, hmost, hname⟩
    · exact .inr (.inl ⟨hnot, most, hmost, hall⟩)
    · exact .inr (.inr hnothing)
  · rintro (⟨most, hmost, hname⟩ | ⟨hnot, most, hmost, hall⟩ | hnothing)
    · exact .inl ⟨most, hmost, .inl hname⟩
    · exact .inl ⟨most, hmost, .inr ⟨hall, hnot⟩⟩
    · exact .inr hnothing

/-- Of the entries that are read, the one of the least weight is not outweighed by what is listed
for other codings. -/
structure LeastUnbeaten (support : CompressionType → Bool) (entries : List CompressionEntry)
    (listed : List ListedCoding) : Prop where
  named : ∀ least, MayStop support entries least → ∀ coding, codingNamed least.value = some coding →
    Unbeaten support listed (some coding) ∨ coding = .none ∧ NothingWanted support listed
  /-- '*' is read for the first of the codings that are supported. -/
  all : ∀ least, MayStop support entries least → codingNamed least.value = none →
    CoveredUnbeaten support listed (getBestCompressionThatIsSupported support)
  /-- Nothing that is supported is read. -/
  nothing : (∀ entry ∈ entries, ¬ Stops support entry) → CoveredUnbeaten support listed .none

theorem selects_of_named (h : codingNamed entry.value = some coding) :
    selects support entry = coding := by
  obtain ⟨value, weight⟩ := entry
  cases value with
  | noEncoding => exact Option.some.inj h
  | allEncodings => cases h
  | normalEncoding compression => exact Option.some.inj h

theorem selects_of_all (h : codingNamed entry.value = none) :
    selects support entry = getBestCompressionThatIsSupported support := by
  obtain ⟨value, weight⟩ := entry
  cases value with
  | noEncoding => cases h
  | allEncodings => rfl
  | normalEncoding compression => cases h

/-- What every entry that may come first selects is chosen well. -/
theorem leastUnbeaten_iff
    (hlisted : ∀ entry ∈ entries, ∃ other ∈ listed, other.value = entry.value) :
    (∀ least, MayStop support entries least → ChosenWell support listed (selects support least)) ∧
        ((∀ entry ∈ entries, ¬ Stops support entry) → ChosenWell support listed .none) ↔
      LeastUnbeaten support entries listed := by
  constructor
  · rintro ⟨hstop, hnothing⟩
    refine ⟨?_, ?_, fun hnone => chosenWell_iff.1 (hnothing hnone)⟩
    · intro least hleast coding hnamed
      have hgood := chosenWell_iff.1 (hstop least hleast)
      rw [selects_of_named hnamed] at hgood
      rcases hgood with hname | ⟨hnot, -⟩ | hnothing
      · exact .inl hname
      · -- a coding that is read is named by what is listed
        obtain ⟨other, hother, hvalue⟩ := hlisted least hleast.1
        exact absurd (hvalue ▸ hnamed) (hnot other hother)
      · exact .inr hnothing
    · intro least hleast hall
      have hgood := chosenWell_iff.1 (hstop least hleast)
      rwa [selects_of_all hall] at hgood
  · rintro ⟨hnamed, hall, hnothing⟩
    refine ⟨?_, fun hnone => chosenWell_iff.2 (hnothing hnone)⟩
    intro least hleast
    rw [chosenWell_iff]
    cases hvalue : codingNamed least.value with
    | none =>
      rw [selects_of_all hvalue]
      exact hall least hleast hvalue
    | some coding =>
      rw [selects_of_named hvalue]
      exact (hnamed least hleast coding hvalue).imp id .inr

/-! ## Plain headers -/

/-- A header without '*' that lists no coding twice and is read as it is listed: the same codings,
which compare as their weights do. -/
structure ListedPlainly (listed : List ListedCoding) (entries : List CompressionEntry) : Prop where
  named : ∀ entry ∈ listed, codingNamed entry.value ≠ none
  once : (listed.map fun entry => codingNamed entry.value).Nodup
  read : entries.map CompressionEntry.value = listed.map ListedCoding.value
  compared : ∀ a ∈ entries, ∀ b ∈ entries, ∀ a' ∈ listed, ∀ b' ∈ listed,
    a.value = a'.value → b.value = b'.value →
      SignType.sign (compareFunctionEntries a b) = SignType.sign (a'.weight - b'.weight)

/-- All entries that can be served have the same weight, which is above 0, or the first of them is
`identity`. -/
structure EquallyWanted (support : CompressionType → Bool) (listed : List ListedCoding) :
    Prop where
  same : ∀ a ∈ listed, ∀ b ∈ listed, Served support a.value → Served support b.value →
    a.weight = b.weight
  first : ∀ before first after, listed = before ++ first :: after → Served support first.value →
    (∀ other ∈ before, ¬ Served support other.value) →
      0 < first.weight ∨ codingNamed first.value = some .none

/-- An entry that can be served: the ones in front of it weigh more, and none weighs less. -/
structure Lightest (support : CompressionType → Bool) (listed : List ListedCoding)
    (entry : ListedCoding) : Prop where
  served : Served support entry.value
  least : ∃ before after, listed = before ++ entry :: after ∧
    (∀ other ∈ before, Served support other.value → entry.weight < other.weight) ∧
      ∀ other ∈ after, Served support other.value → entry.weight ≤ other.weight

theorem Lightest.le {lightest other : ListedCoding} (h : Lightest support listed lightest)
    (hother : other ∈ listed) (hserved : Served support other.value) :
    lightest.weight ≤ other.weight := by
  obtain ⟨before, after, rfl, hbefore, hafter⟩ := h.least
  rcases List.mem_append.1 hother with hin | hin
  · exact (hbefore other hin hserved).le
  · rcases List.mem_cons.1 hin with rfl | hin
    · exact le_rfl
    · exact hafter other hin hserved

/-- Where nothing weighs more, the lightest entry is the first one that can be served. -/
theorem Lightest.first {lightest first : ListedCoding} {before after : List ListedCoding}
    (h : Lightest support listed lightest)
    (hmost : ∀ other ∈ listed, Served support other.value → other.weight ≤ lightest.weight)
    (hlist : listed = before ++ first :: after) (hserved : Served support first.value)
    (hnone : ∀ other ∈ before, ¬ Served support other.value) : first = lightest := by
  obtain ⟨front, rest, hsplit, hfront, -⟩ := h.least
  have hfirst := hmost first (by simp [hlist]) hserved
  rw [hlist] at hsplit
  rcases append_cons_cases hsplit with rfl | ⟨middle, rfl, -⟩ | ⟨middle, rfl, -⟩
  · rfl
  · exact absurd (hfront first (by simp) hserved) (not_lt.2 hfirst)
  · exact absurd h.served (hnone lightest (by simp))

/-- **The lightest entry of a plain header** is not outweighed exactly where all weigh the same. -/
theorem Lightest.unbeaten_iff {lightest : ListedCoding} (h : Lightest support listed lightest)
    (honce : (listed.map fun entry => codingNamed entry.value).Nodup)
    (hweights : ∀ entry ∈ listed, 0 ≤ entry.weight)
    (hname : codingNamed lightest.value = some coding) :
    (Unbeaten support listed (some coding) ∨ coding = .none ∧ NothingWanted support listed) ↔
      EquallyWanted support listed := by
  obtain ⟨front, rest, hlist, hfront, -⟩ := h.least
  have hmem : lightest ∈ listed := by simp [hlist]
  have honly : ∀ entry ∈ listed, codingNamed entry.value = some coding → entry = lightest :=
    fun entry hentry hsame => List.inj_on_of_nodup_map honce hentry hmem (hsame.trans hname.symm)
  constructor
  · intro hgood
    have hmost : ∀ other ∈ listed, Served support other.value →
        other.weight ≤ lightest.weight := by
      intro other hother hserved
      rcases hgood with hunbeaten | ⟨-, hnothing⟩
      · by_cases hsame : codingNamed other.value = some coding
        · rw [honly other hother hsame]
        obtain ⟨before, after, hsplit⟩ := List.append_of_mem hother
        rcases hunbeaten.others before other after hsplit hserved hsame with
          ⟨entry, hentry, hentryName, hle⟩ | ⟨entry, hentry, hentryName, hless⟩
        · rwa [honly entry (by simp [hsplit, hentry]) hentryName] at hle
        · rw [honly entry (by simp [hsplit, hentry]) hentryName] at hless
          exact hless.le
      · exact (hnothing other hother hserved).trans (hweights lightest hmem)
    refine ⟨?_, ?_⟩
    · intro a ha b hb hservedA hservedB
      have hequal : ∀ other ∈ listed, Served support other.value →
          other.weight = lightest.weight := fun other hother hserved =>
        le_antisymm (hmost other hother hserved) (h.le hother hserved)
      rw [hequal a ha hservedA, hequal b hb hservedB]
    · intro before first after hsplit hserved hnone
      rw [h.first hmost hsplit hserved hnone]
      rcases hgood with hunbeaten | ⟨rfl, -⟩
      · obtain ⟨entry, hentry, hentryName, hpositive⟩ := hunbeaten.wanted
        rw [honly entry hentry hentryName] at hpositive
        exact .inl hpositive
      · exact .inr hname
  · rintro ⟨hsame, hfirst⟩
    have hnone : ∀ other ∈ front, ¬ Served support other.value := by
      intro other hother hserved
      have hequal := hsame other (by simp [hlist, hother]) lightest hmem hserved h.served
      exact absurd (hfront other hother hserved) hequal.not_gt
    by_cases hpositive : 0 < lightest.weight
    · refine .inl ⟨⟨lightest, hmem, hname, hpositive⟩, ?_⟩
      intro before other after hsplit hserved hother
      have hequal := hsame other (by simp [hsplit]) lightest hmem hserved h.served
      rw [hlist] at hsplit
      rcases append_cons_cases hsplit with rfl | ⟨middle, rfl, -⟩ | ⟨middle, rfl, -⟩
      · exact absurd hname hother
      · exact .inl ⟨lightest, by simp, hname, hequal.le⟩
      · exact absurd hserved (hnone other (by simp))
    · have hidentity := (hfirst front lightest rest hlist h.served hnone).resolve_left hpositive
      refine .inr ⟨Option.some.inj (hname.symm.trans hidentity), ?_⟩
      intro other hother hserved
      rw [hsame other hother lightest hmem hserved h.served]
      exact not_lt.1 hpositive

/-- What is read of a plain header can be compared. -/
theorem ListedPlainly.consistent (h : ListedPlainly listed entries) :
    Consistent compareFunctionEntries entries := by
  have hlisted : ∀ a ∈ entries, ∃ a' ∈ listed, a.value = a'.value := by
    intro a ha
    have hvalue : a.value ∈ listed.map ListedCoding.value := h.read ▸ List.mem_map_of_mem ha
    obtain ⟨a', ha', hsame⟩ := List.mem_map.1 hvalue
    exact ⟨a', ha', hsame.symm⟩
  have hle : ∀ a ∈ entries, ∀ b ∈ entries, ∀ a' ∈ listed, ∀ b' ∈ listed,
      a.value = a'.value → b.value = b'.value →
        (compareFunctionEntries a b ≤ 0 ↔ a'.weight ≤ b'.weight) := by
    intro a ha b hb a' ha' b' hb' hvalueA hvalueB
    rw [← sign_nonpos_iff, h.compared a ha b hb a' ha' b' hb' hvalueA hvalueB, sign_nonpos_iff,
      sub_nonpos]
  constructor
  · intro a ha b hb
    obtain ⟨a', ha', hvalueA⟩ := hlisted a ha
    obtain ⟨b', hb', hvalueB⟩ := hlisted b hb
    rw [hle a ha b hb a' ha' b' hb' hvalueA hvalueB, ← sign_nonneg_iff,
      h.compared b hb a ha b' hb' a' ha' hvalueB hvalueA, sign_nonneg_iff, sub_nonneg]
  · intro a ha b hb c hc
    obtain ⟨a', ha', hvalueA⟩ := hlisted a ha
    obtain ⟨b', hb', hvalueB⟩ := hlisted b hb
    obtain ⟨c', hc', hvalueC⟩ := hlisted c hc
    rw [hle a ha b hb a' ha' b' hb' hvalueA hvalueB, hle b hb c hc b' hb' c' hc' hvalueB hvalueC,
      hle a ha c hc a' ha' c' hc' hvalueA hvalueC]
    exact le_trans

/-- The first one of the least entries that are read is the lightest one that is listed. -/
theorem ListedPlainly.lightest (h : ListedPlainly listed entries) {least : CompressionEntry}
    (hleast : FirstLeast compareFunctionEntries (Stops support) entries least) :
    ∃ lightest, lightest.value = least.value ∧ Lightest support listed lightest := by
  obtain ⟨before, after, rfl, hstops, hbefore, hafter⟩ := hleast
  have hread := h.read.symm
  rw [List.map_append, List.map_cons] at hread
  obtain ⟨front, back, rfl, hfront, hback⟩ := List.map_eq_append_iff.1 hread
  obtain ⟨lightest, rest, rfl, hvalue, hrest⟩ := List.map_eq_cons_iff.1 hback
  have hserved : Served support lightest.value := by
    rcases hstops with hserved | hall
    · rwa [hvalue]
    · exact absurd (by rw [hvalue, hall]; rfl) (h.named lightest (by simp))
  have hcompared : ∀ (part : List CompressionEntry) (part' : List ListedCoding),
      (∀ b ∈ part, b ∈ before ++ least :: after) →
      (∀ other ∈ part', other ∈ front ++ lightest :: rest) →
      part'.map ListedCoding.value = part.map CompressionEntry.value →
      ∀ other ∈ part', Served support other.value → ∃ b ∈ part, Stops support b ∧
        SignType.sign (compareFunctionEntries least b) =
          SignType.sign (lightest.weight - other.weight) := by
    intro part part' hpart hpart' hsame other hother hserved
    have hmem : other.value ∈ part.map CompressionEntry.value :=
      hsame ▸ List.mem_map_of_mem hother
    obtain ⟨b, hb, hvalueB⟩ := List.mem_map.1 hmem
    refine ⟨b, hb, .inl (by rwa [hvalueB]), ?_⟩
    exact h.compared least (by simp) b (hpart b hb) lightest (by simp) other (hpart' other hother)
      hvalue.symm hvalueB
  refine ⟨lightest, hvalue, hserved, front, rest, rfl, ?_, ?_⟩
  · intro other hother hservedOther
    obtain ⟨b, hb, hstopsB, hsign⟩ := hcompared before front
      (fun b hb => by simp [hb]) (fun other hother => by simp [hother]) hfront other hother
      hservedOther
    rw [sign_eq_neg_one_iff.2 (hbefore b hb hstopsB), eq_comm, sign_eq_neg_one_iff,
      sub_neg] at hsign
    exact hsign
  · intro other hother hservedOther
    obtain ⟨b, hb, hstopsB, hsign⟩ := hcompared after rest
      (fun b hb => by simp [hb]) (fun other hother => by simp [hother]) hrest other hother
      hservedOther
    have hle := hafter b hb hstopsB
    rwa [← sign_nonpos_iff, hsign, sign_nonpos_iff, sub_nonpos] at hle

/-- **Plain headers**: the least wanted entry is not outweighed where all are wanted equally. -/
theorem ListedPlainly.leastUnbeaten_iff (h : ListedPlainly listed entries)
    (hweights : ∀ entry ∈ listed, 0 ≤ entry.weight) :
    LeastUnbeaten support entries listed ↔ EquallyWanted support listed := by
  have hsort := stableSort_isStableSort compareFunctionEntries fun l : List CompressionEntry =>
    List.Perm.refl l
  cases hfind : (stableSort compareFunctionEntries (fun l => l) entries).find?
      fun entry => Stops support entry with
  | none =>
    have hnot := hsort.find?_eq_none_iff.1 hfind
    have hserved : ∀ other ∈ listed, ¬ Served support other.value := by
      intro other hother hserved
      have hvalue : other.value ∈ entries.map CompressionEntry.value :=
        h.read ▸ List.mem_map_of_mem hother
      obtain ⟨entry, hentry, hsame⟩ := List.mem_map.1 hvalue
      exact hnot entry hentry (.inl (by rwa [hsame]))
    refine iff_of_true ⟨?_, ?_, ?_⟩ ⟨?_, ?_⟩
    · exact fun least hleast => absurd hleast.2.1 (hnot least hleast.1)
    · exact fun least hleast => absurd hleast.2.1 (hnot least hleast.1)
    · exact fun _ => .inr (.inr ⟨rfl, fun other hother hin => absurd hin (hserved other hother)⟩)
    · exact fun a ha _ _ hin => absurd hin (hserved a ha)
    · exact fun _ first _ hlist hin => absurd hin (hserved first (by simp [hlist]))
  | some least =>
    have hmay : MayStop support entries least := mayStop_of_find hsort hfind
    have hleast := hmay.2.2 h.consistent
    have honly : ∀ entry, MayStop support entries entry → entry = least := fun entry hentry =>
      (hentry.2.2 h.consistent).unique h.consistent hleast
    obtain ⟨lightest, hvalue, hlightest⟩ := h.lightest hleast
    obtain ⟨coding, hname, -⟩ := hlightest.served
    rw [← hlightest.unbeaten_iff h.once hweights hname]
    rw [hvalue] at hname
    constructor
    · exact fun hgood => hgood.named least hmay coding hname
    · intro hgood
      refine ⟨?_, ?_, fun hnot => absurd hmay.2.1 (hnot least hmay.1)⟩
      · intro entry hentry coding' hname'
        rw [honly entry hentry, hname] at hname'
        obtain rfl := Option.some.inj hname'
        exact hgood
      · intro entry hentry hall
        rw [honly entry hentry, hname] at hall
        cases hall

example : ListedPlainly (listedCodings IsSpace (ascii "gzip, br;q=0.25"))
    (readCodings IsSpace (ascii "gzip, br;q=0.25")) :=
  ⟨by decide +kernel, by decide +kernel, by decide +kernel, by decide +kernel⟩

theorem sendSettingsOf_compression {sort : List CompressionEntry → List CompressionEntry}
    (hsort : IsStableSort compareFunctionEntries sort) (entries : List CompressionEntry)
    (protocolData : HttpProtocolData) :
    (sendSettingsOf sort support entries protocolData).compressionToUse =
      selectCompression support (sort entries) := by
  unfold sendSettingsOf
  split_ifs with hempty
  · have hnil : sort entries = [] := by
      rw [← List.length_eq_zero_iff, (hsort.perm entries).length_eq, hempty]
    rw [hnil]
    rfl
  · rfl

/-- Whatever stable sort is used, the coding of the answer is one that the header wants most. -/
def ChoosesWell (p : HeadParser Uri) (blank : UInt8 → Prop) [DecidablePred blank]
    (support : CompressionType → Bool) (headerFields : List HttpHeaderField)
    (protocolData : HttpProtocolData) : Prop :=
  ∀ sort, IsStableSort compareFunctionEntries sort →
    ChosenWell support (listedCodings blank (acceptEncoding headerFields))
      (sendSettingsOf sort support (getCompressionSettings p headerFields)
        protocolData).compressionToUse

/-- A header. -/
def acceptHeader (value : String) : List HttpHeaderField :=
  [⟨ascii "Accept-Encoding", ascii value⟩]

end SimpleServer.Http
