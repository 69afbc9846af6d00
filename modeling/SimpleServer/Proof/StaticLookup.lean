import SimpleServer.Proof.FastCompare
import SimpleServer.Proof.HpackField

/-!
# The lookup in the static table

The generated lookup finds the key among the different keys of the table, and then looks at the
rows with this key. It is the lookup that the encoder is modelled with, and that is a scan of
the table, but for a value that extends the one of `accept-encoding`.

* `hpackGeneratedFindInStaticTable_eq`: the generated code and the rows of a key.
* `meant_of_not_extends`: what is found is meant.
* `lookupExact_iff`: **when the lookup is a scan of the table.**
-/

namespace SimpleServer.Hpack

variable {field : HttpHeaderField} {key : Bytes} {i j idx : ℕ} {value : Option Bytes}

/-! ## The generated code -/

theorem mem_keyOfStaticTable :
    key ∈ keyOfStaticTable ↔ ∃ value, (key, value) ∈ hpackStaticHeaderTableEntries := by
  unfold keyOfStaticTable
  rw [List.mem_eraseDups, List.mem_map]
  constructor
  · rintro ⟨⟨key', value⟩, hmem, rfl⟩
    exact ⟨value, hmem⟩
  · rintro ⟨value, hmem⟩
    exact ⟨_, hmem, rfl⟩

theorem staticTableRows_eq_nil (h : key ∉ keyOfStaticTable) : staticTableRows key = [] := by
  rw [List.eq_nil_iff_forall_not_mem]
  rintro ⟨i, value⟩ hmem
  obtain ⟨-, hentry⟩ := mem_staticTableRows.1 hmem
  exact h (mem_keyOfStaticTable.2 ⟨value, List.mem_of_getElem? hentry⟩)

theorem comparable_keys : Comparable keyOfStaticTable := by decide +kernel

/-- The values of a key with several rows can be compared, and a value of a single row has no
zero bytes. -/
theorem comparable_values : ∀ key ∈ keyOfStaticTable,
    ((staticTableRows key).length ≠ 1 →
      Comparable ((staticTableRows key).map fun r => r.2.getD [])) ∧
    ∀ row ∈ staticTableRows key, 0 ∉ row.2.getD [] := by
  decide +kernel

/-- The rows of a key are in the order of the table. -/
theorem staticTableRows_sorted (key : Bytes) :
    ((staticTableRows key).map Prod.fst).Pairwise (· < ·) := by
  have hsize : hpackStaticHeaderTableEntries.length = hpackStaticHeaderTableSize := by decide
  have hzip : ((List.range hpackStaticHeaderTableSize).zip hpackStaticHeaderTableEntries).Pairwise
      fun a b => a.1 < b.1 := by
    have hrange := List.pairwise_lt_range (n := hpackStaticHeaderTableSize)
    have hfst : ((List.range hpackStaticHeaderTableSize).zip hpackStaticHeaderTableEntries).map
        Prod.fst = List.range hpackStaticHeaderTableSize := by
      apply List.map_fst_zip
      rw [List.length_range, hsize]
    rw [← hfst, List.pairwise_map] at hrange
    exact hrange
  unfold staticTableRows
  rw [List.pairwise_map, List.pairwise_filterMap]
  apply hzip.imp
  rintro ⟨i, entry⟩ ⟨i', entry'⟩ hless row hrow row' hrow'
  dsimp only at hrow hrow'
  split_ifs at hrow hrow'
  rw [← Option.some.inj hrow, ← Option.some.inj hrow']
  exact Nat.succ_lt_succ hless

/-- **The generated lookup** looks at the rows of the key. -/
theorem hpackGeneratedFindInStaticTable_eq (field : HttpHeaderField) :
    hpackGeneratedFindInStaticTable field = hpackGeneratedFindInStaticTableFast field := by
  unfold hpackGeneratedFindInStaticTable hpackGeneratedFindInStaticTableFast
  cases hfind : fastStringCompareImpl keyOfStaticTable field.key with
  | none =>
    have hkey : field.key ∉ keyOfStaticTable := by
      intro hmem
      obtain ⟨idx, hidx⟩ := List.mem_iff_getElem?.1 hmem
      rw [(fastStringCompareImpl_eq_some comparable_keys).2 hidx] at hfind
      cases hfind
    rw [staticTableRows_eq_nil hkey]
  | some idx =>
    have hidx := (fastStringCompareImpl_eq_some comparable_keys).1 hfind
    have hmem := List.mem_of_getElem? hidx
    obtain ⟨hseveral, hsingle⟩ := comparable_values field.key hmem
    dsimp only
    rw [hidx]
    dsimp only
    generalize staticTableRows field.key = rows at hseveral hsingle
    match rows, hseveral, hsingle with
    | [], _, _ => rfl
    | [(index, none)], _, _ => rfl
    | [(index, some value)], _, hsingle =>
      have hzero : 0 ∉ value := hsingle _ (List.mem_singleton_self _)
      have hsame : strncmpEq value.length field.value value = value.isPrefixOf field.value := by
        rw [Bool.eq_iff_iff, strncmpEq_iff hzero rfl, List.isPrefixOf_iff_prefix]
      dsimp only
      rw [hsame]
    | (index, none) :: second :: rest, hseveral, _ =>
      dsimp only
      rewrite [fastStringCompareImpl_eq (hseveral (by simp))]
      rfl
    | (index, some value) :: second :: rest, hseveral, _ =>
      dsimp only
      rewrite [fastStringCompareImpl_eq (hseveral (by simp))]
      rfl

/-! ## A scan of the table -/

/-- The entry of the static table with an index. -/
def StaticEntry (i : ℕ) (entry : Bytes × Option Bytes) : Prop :=
  i ≠ 0 ∧ hpackStaticHeaderTableEntries[i - 1]? = some entry

/-- What a scan of the static table for the field finds. -/
def Meant (field : HttpHeaderField) : TableFindResult → Prop
  | .allFound i => StaticEntry i (field.key, some field.value)
  | .keyFound i =>
    (∃ value, StaticEntry i (field.key, value)) ∧
      (∀ j value, StaticEntry j (field.key, value) → i ≤ j) ∧
      ¬ ∃ j, StaticEntry j (field.key, some field.value)
  | .notFound => ¬ ∃ i value, StaticEntry i (field.key, value)

theorem staticEntry_iff : StaticEntry i (key, value) ↔ (i, value) ∈ staticTableRows key :=
  mem_staticTableRows.symm

theorem staticEntry_unique {entry : Bytes × Option Bytes} (h : StaticEntry i entry)
    (h' : StaticEntry j entry) : i = j := by
  have hnodup : hpackStaticHeaderTableEntries.Nodup := by decide +kernel
  obtain ⟨hpos, hentry⟩ := h
  obtain ⟨hpos', hentry'⟩ := h'
  obtain ⟨hlt, hget⟩ := List.getElem?_eq_some_iff.1 hentry
  obtain ⟨hlt', hget'⟩ := List.getElem?_eq_some_iff.1 hentry'
  have hsame := (List.Nodup.getElem_inj_iff hnodup).1 (hget.trans hget'.symm)
  omega

/-- **What the lookup finds is meant**, but for the value that is extended. -/
theorem meant_of_not_extends (h : ¬ ExtendsStaticValue field) :
    Meant field (hpackGeneratedFindInStaticTableFast field) := by
  unfold hpackGeneratedFindInStaticTableFast
  split
  · rename_i hrows
    rintro ⟨i, value, hentry⟩
    rw [staticEntry_iff, hrows] at hentry
    cases hentry
  · rename_i index hrows
    have hrow : ∀ j value, StaticEntry j (field.key, value) ↔ (j, value) = (index, none) := by
      intro j value
      rw [staticEntry_iff, hrows, List.mem_singleton]
    refine ⟨⟨none, (hrow _ _).2 rfl⟩, ?_, ?_⟩
    · intro j value hentry
      obtain ⟨rfl, -⟩ := Prod.mk.inj ((hrow j value).1 hentry)
      exact Nat.le_refl _
    · rintro ⟨j, hentry⟩
      obtain ⟨-, hnone⟩ := Prod.mk.inj ((hrow j _).1 hentry)
      cases hnone
  · rename_i index value hrows
    have hrow : ∀ j value', StaticEntry j (field.key, value') ↔
        (j, value') = (index, some value) := by
      intro j value'
      rw [staticEntry_iff, hrows, List.mem_singleton]
    have hentry : StaticEntry index (field.key, some value) := (hrow _ _).2 rfl
    split_ifs with hprefix
    · have hstatic := staticTable_rows _ (List.mem_of_getElem? hentry.2)
      rw [if_pos (by rw [hrows]; rfl)] at hstatic
      obtain ⟨hkey, hvalue⟩ := Prod.mk.inj (hstatic.resolve_left nofun)
      have hsame : field.value = value := by
        by_contra hne
        rw [Option.some.inj hvalue] at hprefix hne
        exact h ⟨hkey, List.isPrefixOf_iff_prefix.1 hprefix, hne⟩
      rw [← hsame] at hentry
      exact hentry
    · refine ⟨⟨_, hentry⟩, ?_, ?_⟩
      · intro j value' hentry'
        obtain ⟨rfl, -⟩ := Prod.mk.inj ((hrow j value').1 hentry')
        exact Nat.le_refl _
      · rintro ⟨j, hentry'⟩
        obtain ⟨-, hvalue⟩ := Prod.mk.inj ((hrow j _).1 hentry')
        rw [Option.some.inj hvalue] at hprefix
        exact hprefix (List.isPrefixOf_iff_prefix.2 List.prefix_rfl)
  · rename_i hnil hnone hsome
    have hpos := List.length_pos_of_ne_nil (fun h => hnil h)
    have hlength : (staticTableRows field.key).length ≠ 1 := by
      intro hone
      obtain ⟨⟨index, value⟩, hrow⟩ := List.length_eq_one_iff.1 hone
      cases value with
      | none => exact hnone index hrow
      | some value => exact hsome index value hrow
    -- the rows as entries of the table, all of them with values
    have hrow : ∀ (k : ℕ) (hk : k < (staticTableRows field.key).length),
        ∃ value, (staticTableRows field.key)[k].2 = some value ∧
          ((staticTableRows field.key).map Prod.fst).getD k 0 = (staticTableRows field.key)[k].1 ∧
          StaticEntry (staticTableRows field.key)[k].1 (field.key, some value) := by
      intro k hk
      have hentry : StaticEntry (staticTableRows field.key)[k].1
          (field.key, (staticTableRows field.key)[k].2) :=
        staticEntry_iff.2 (List.getElem_mem hk)
      have hstatic := staticTable_rows _ (List.mem_of_getElem? hentry.2)
      rw [if_neg hlength] at hstatic
      obtain ⟨value, hvalue⟩ := Option.ne_none_iff_exists'.1 hstatic
      dsimp only at hvalue
      rw [hvalue] at hentry
      refine ⟨value, hvalue, ?_, hentry⟩
      rw [List.getD_eq_getElem _ _ (by rw [List.length_map]; exact hk), List.getElem_map]
    split
    · rename_i k hfind
      obtain ⟨hk, hvalue, -⟩ := List.findIdx?_eq_some_iff_getElem.1 hfind
      rw [List.length_map] at hk
      obtain ⟨value, hsome', hindex, hentry⟩ := hrow k hk
      rw [List.getElem_map, beq_iff_eq, hsome', Option.getD_some] at hvalue
      rw [hindex]
      rw [hvalue] at hentry
      exact hentry
    · rename_i hfind
      obtain ⟨value, -, hindex, hentry⟩ := hrow 0 hpos
      rw [hindex]
      refine ⟨⟨_, hentry⟩, ?_, ?_⟩
      · -- the first row is the first entry
        intro j value' hentry'
        have hsorted := staticTableRows_sorted field.key
        obtain ⟨k, hk, hget⟩ := List.mem_iff_getElem.1 (staticEntry_iff.1 hentry')
        have hj : j = (staticTableRows field.key)[k].1 := by rw [hget]
        rw [hj]
        rcases Nat.eq_zero_or_pos k with rfl | hkpos
        · exact Nat.le_refl _
        · have hless := (List.pairwise_iff_getElem.1 hsorted) 0 k
            (by rw [List.length_map]; exact hpos) (by rw [List.length_map]; exact hk) hkpos
          rw [List.getElem_map, List.getElem_map] at hless
          exact Nat.le_of_lt hless
      · rintro ⟨j, hentry'⟩
        rw [fastStringCompare, List.findIdx?_eq_none_iff] at hfind
        have hmem := List.mem_map_of_mem (f := fun r : ℕ × Option Bytes => r.2.getD [])
          (staticEntry_iff.1 hentry')
        have hne := hfind _ hmem
        rw [Option.getD_some, beq_self_eq_true] at hne
        cases hne

/-- What is meant is one result. -/
theorem meant_unique {result result' : TableFindResult} (h : Meant field result)
    (h' : Meant field result') : result = result' := by
  have hboth : ∀ {i j : ℕ}, Meant field (.allFound i) → Meant field (.keyFound j) → False :=
    fun hall hkey => hkey.2.2 ⟨_, hall⟩
  cases result with
  | allFound i =>
    cases result' with
    | allFound j => rw [staticEntry_unique h h']
    | keyFound j => exact (hboth h h').elim
    | notFound => exact (h' ⟨i, _, h⟩).elim
  | keyFound i =>
    obtain ⟨value, hentry⟩ := h.1
    cases result' with
    | allFound j => exact (hboth h' h).elim
    | keyFound j =>
      obtain ⟨value', hentry'⟩ := h'.1
      rw [le_antisymm (h.2.1 j value' hentry') (h'.2.1 i value hentry)]
    | notFound => exact (h' ⟨i, value, hentry⟩).elim
  | notFound =>
    cases result' with
    | allFound j => exact (h ⟨j, _, h'⟩).elim
    | keyFound j =>
      obtain ⟨value', hentry'⟩ := h'.1
      exact (h ⟨j, value', hentry'⟩).elim
    | notFound => rfl

/-- The generated lookup gives what a scan of the table finds, and `find_in_tables` reports no
entry as the whole field that is another one. -/
structure LookupExact (field : HttpHeaderField) : Prop where
  static : ∀ result, hpackGeneratedFindInStaticTable field = result ↔ Meant field result
  tables : ∀ (state : HpackCompressState) (useAllTables : Bool) (i : ℕ),
    findInTables field state useAllTables = .allFound i →
      hpackGetTableEntryAt state i = some (field.key, some field.value)

/-- **When the lookup is a scan of the table.** -/
theorem lookupExact_iff (field : HttpHeaderField) :
    LookupExact field ↔ ¬ ExtendsStaticValue field := by
  constructor
  · rintro hexact ⟨hkey, hprefix, hne⟩
    have hrows : staticTableRows acceptEncoding = [(16, some gzipDeflate)] := by decide +kernel
    have hfound : hpackGeneratedFindInStaticTable field = .allFound 16 := by
      rw [hpackGeneratedFindInStaticTable_eq]
      unfold hpackGeneratedFindInStaticTableFast
      rw [hkey, hrows]
      dsimp only
      rw [if_pos (List.isPrefixOf_iff_prefix.2 hprefix)]
    have hentry : StaticEntry 16 (field.key, some field.value) := (hexact.static _).1 hfound
    rw [staticEntry_iff, hkey, hrows, List.mem_singleton] at hentry
    exact hne (Option.some.inj (Prod.mk.inj hentry).2)
  · intro hnot
    refine ⟨?_, ?_⟩
    · intro result
      rw [hpackGeneratedFindInStaticTable_eq]
      constructor
      · rintro rfl
        exact meant_of_not_extends hnot
      · intro hmeant
        exact meant_unique (meant_of_not_extends hnot) hmeant
    · intro state useAllTables i hfound
      have hok := findInTables_ok state field useAllTables
      rw [hfound] at hok
      exact hok.2 hnot

/-- A value that goes on after the one of the table is taken for it. -/
theorem extendedValue_taken : ¬ LookupExact ⟨acceptEncoding, ascii "gzip, deflate, br"⟩ := by
  intro hexact
  have hfound : findInTables ⟨acceptEncoding, ascii "gzip, deflate, br"⟩
      (getDefaultHpackDynamicTableState 4096) false = .allFound 16 := by decide +kernel
  have hentry := hexact.tables _ _ _ hfound
  have hother : hpackGetTableEntryAt (getDefaultHpackDynamicTableState 4096) 16 =
      some (acceptEncoding, some gzipDeflate) := by decide +kernel
  rw [hother] at hentry
  exact absurd hentry (by decide +kernel)

end SimpleServer.Hpack
