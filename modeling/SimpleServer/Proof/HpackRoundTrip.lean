import SimpleServer.Lib.Run
import SimpleServer.Proof.HpackField

/-!
# Header lists over a whole connection

Both ends of a connection start with an empty table of the same size and work on the same
blocks. Each block is compressed with options of its own.

* `compressLoop_written`, `decompressLoop_fields`: a list of fields is written and read field by
  field, both ends with the same table.
* `roundTrips_of_along`: every list comes back as it was and both tables stay the same, as long as
  every field is one the codec can carry (`FieldOk`).
* `emptyValue_lost`: a list whose last field has an empty value does not come back.
-/

namespace SimpleServer.Hpack

open Lib

/-- The two ends of a connection. -/
structure HpackConnection where
  compressState : HpackCompressState
  decompressState : HpackDecompressState

/-- A header list, with the options it is compressed with. -/
structure HeaderBlock where
  fields : List HttpHeaderField
  options : Http2HpackCompressOptions

def startConnection (maxDynamicTableByteSize : ℕ) : HpackConnection :=
  ⟨getDefaultHpackDynamicTableState maxDynamicTableByteSize,
    getDefaultHpackDynamicTableState maxDynamicTableByteSize⟩

/-- A block is compressed, and decompressed at the other end if that succeeded. -/
def transmit (connection : HpackConnection) (block : HeaderBlock) : HpackConnection :=
  match http2HpackCompressData connection.compressState block.fields block.options with
  | (compressState, .error _) => ⟨compressState, connection.decompressState⟩
  | (compressState, .ok bytes) =>
    ⟨compressState, (http2HpackDecompressData connection.decompressState bytes).1⟩

/-- The entries of the table, in order. -/
def tableEntries (table : HpackHeaderDynamicTable) : List HpackHeaderDynamicEntry :=
  (List.range (hpackDynamicTableSize table)).map table.slot

/-- The block is compressed, comes back as it was, and both tables hold the same then. -/
def ComesBack (connection : HpackConnection) (block : HeaderBlock) : Prop :=
  ∃ compressState bytes decompressState,
    http2HpackCompressData connection.compressState block.fields block.options =
      (compressState, .ok bytes) ∧
    http2HpackDecompressData connection.decompressState bytes =
      (decompressState, .ok block.fields) ∧
    tableEntries compressState.dynamicTable = tableEntries decompressState.dynamicTable ∧
    compressState.currentDynamicTableByteSize = decompressState.currentDynamicTableByteSize

/-- Every block of the connection comes back. -/
def RoundTrips (maxDynamicTableByteSize : ℕ) (blocks : List HeaderBlock) : Prop :=
  Along transmit ComesBack (startConnection maxDynamicTableByteSize) blocks

/-- Each field of a list is one the codec can carry, with the table as it is then. -/
def FieldsOk (options : Http2HpackCompressOptions) :
    HpackCompressState → List HttpHeaderField → Prop
  | _, [] => True
  | state, field :: fields =>
    FieldOk options state field fields.isEmpty ∧
      FieldsOk options (encodeField options field state).1 fields

instance decidableFieldsOk (options : Http2HpackCompressOptions) :
    ∀ (state : HpackCompressState) (fields : List HttpHeaderField),
      Decidable (FieldsOk options state fields)
  | _, [] => isTrue trivial
  | state, field :: fields =>
    @instDecidableAnd _ _ _ (decidableFieldsOk options (encodeField options field state).1 fields)

/-- The block is one the codec can carry. -/
def BlockOk (connection : HpackConnection) (block : HeaderBlock) : Prop :=
  FieldsOk block.options connection.compressState block.fields

instance (connection : HpackConnection) (block : HeaderBlock) :
    Decidable (BlockOk connection block) :=
  decidableFieldsOk block.options connection.compressState block.fields

/-! ## Lists -/

/-- What a list of fields is written as. -/
inductive WrittenFields : HpackDynamicTableState → List HttpHeaderField →
    HpackDynamicTableState → Bytes → Prop
  | nil (state : HpackDynamicTableState) : WrittenFields state [] state []
  | cons {state state' state'' : HpackDynamicTableState} {field : HttpHeaderField}
      {fields : List HttpHeaderField} {bytes bytes' : Bytes}
      (hfield : WrittenField state field fields.isEmpty state' bytes)
      (hfields : WrittenFields state' fields state'' bytes') :
      WrittenFields state (field :: fields) state'' (bytes ++ bytes')

variable {state state' : HpackDynamicTableState} {fields : List HttpHeaderField} {bytes : Bytes}

/-- Only no fields are written as no bytes. -/
theorem WrittenFields.nil_of_nil (h : WrittenFields state fields state' bytes) (hnil : bytes = []) :
    fields = [] := by
  cases h with
  | nil => rfl
  | cons hfield _ =>
    have hpositive := hfield.positive
    rw [(List.append_eq_nil_iff.1 hnil).1, List.length_nil] at hpositive
    omega

/-- **The fields of a list are written one after the other.** -/
theorem compressLoop_written {options : Http2HpackCompressOptions}
    (h : FieldsOk options state fields) (result : Bytes) :
    ∃ state' bytes,
      compressLoop (encodeField options) fields state result = (state', .ok (result ++ bytes)) ∧
      WrittenFields state fields state' bytes := by
  induction fields generalizing state result with
  | nil => exact ⟨state, [], by rw [compressLoop, List.append_nil], .nil state⟩
  | cons field fields ih =>
    obtain ⟨hfield, hfields⟩ := h
    obtain ⟨state', bytes, hencode, hwritten⟩ := encodeField_written hfield
    rw [hencode] at hfields
    obtain ⟨state'', bytes', hloop, hrest⟩ := ih hfields (result ++ bytes)
    refine ⟨state'', bytes ++ bytes', ?_, .cons hwritten hrest⟩
    unfold compressLoop
    rw [hencode]
    dsimp only
    rw [hloop, List.append_assoc]

/-- **The fields of a list are read one after the other.** -/
theorem decompressLoop_fields {data : Bytes} {pos fuel : ℕ} {headers : List HttpHeaderField}
    (h : WrittenFields state fields state' bytes) (hdata : data.drop pos = bytes)
    (hfuel : bytes.length ≤ fuel) :
    decompressLoop data fuel ⟨pos, headers, state⟩ = (state', .ok (headers ++ fields)) := by
  induction h generalizing pos fuel headers with
  | nil state =>
    have hend : data[pos]? = none := List.getElem?_eq_none (List.drop_eq_nil_iff.1 hdata)
    unfold decompressLoop
    dsimp only
    rw [hend, List.append_nil]
  | @cons state state' state'' field fields bytes bytes' hfield hfields ih =>
    have hpositive := hfield.positive
    rw [List.length_append] at hfuel
    obtain ⟨fuel, rfl⟩ : ∃ f, fuel = f + 1 := ⟨fuel - 1, by omega⟩
    -- when nothing follows this field, it is the last one of the list
    obtain ⟨byte, hbyte, hparse⟩ := hfield.read data pos bytes' headers hdata (fun hnil => by
      rw [hfields.nil_of_nil hnil]
      rfl)
    unfold decompressLoop
    dsimp only
    rw [hbyte]
    dsimp only
    rw [hparse]
    dsimp only
    rw [ih (drop_of_drop hdata) (by omega), List.append_assoc]
    rfl

/-- **A block comes back**, and both ends have the same state after it. -/
theorem block_roundTrip {options : Http2HpackCompressOptions} (h : FieldsOk options state fields) :
    ∃ state' bytes, http2HpackCompressData state fields options = (state', .ok bytes) ∧
      http2HpackDecompressData state bytes = (state', .ok fields) := by
  obtain ⟨state', bytes, hcompress, hwritten⟩ := compressLoop_written h []
  refine ⟨state', bytes, ?_, ?_⟩
  · rw [http2HpackCompressData_eq, hcompress, List.nil_append]
  · exact decompressLoop_fields hwritten List.drop_zero (le_refl _)

/-! ## Connections -/

/-- Both ends have the same table. -/
def InSync (connection : HpackConnection) : Prop :=
  connection.compressState = connection.decompressState

theorem inSync_step (connection : HpackConnection) (block : HeaderBlock)
    (hsync : InSync connection) (h : BlockOk connection block) :
    InSync (transmit connection block) := by
  obtain ⟨state', bytes, hcompress, hdecompress⟩ := block_roundTrip h
  unfold InSync transmit
  rw [hcompress]
  dsimp only
  rw [← hsync, hdecompress]

theorem comesBack_of_ok (connection : HpackConnection) (block : HeaderBlock)
    (hsync : InSync connection) (h : BlockOk connection block) : ComesBack connection block := by
  obtain ⟨state', bytes, hcompress, hdecompress⟩ := block_roundTrip h
  refine ⟨state', bytes, state', hcompress, ?_, rfl, rfl⟩
  rw [← hsync]
  exact hdecompress

/-- **Header lists come back over a whole connection**, with the same table at both ends after
each of them, if every field is one the codec can carry. -/
theorem roundTrips_of_along (maxDynamicTableByteSize : ℕ) (blocks : List HeaderBlock)
    (h : Along transmit BlockOk (startConnection maxDynamicTableByteSize) blocks) :
    RoundTrips maxDynamicTableByteSize blocks :=
  h.imp inSync_step comesBack_of_ok rfl

/-- Fields that are found in the tables, whole or by their key, and fields that are not. -/
def someFields : List HttpHeaderField :=
  [⟨ascii ":method", ascii "GET"⟩, ⟨ascii ":path", ascii "/index.css"⟩,
    ⟨ascii "cookie", []⟩, ⟨ascii "x-name", ascii "some value"⟩]

/-- The fields three times, with different options. -/
def threeBlocks : List HeaderBlock :=
  [⟨someFields, ⟨.auto, .allTablesUsage, .all⟩⟩, ⟨someFields, ⟨.always, .allTablesUsage, .common⟩⟩,
    ⟨someFields, ⟨.never, .noTableUsage, .none⟩⟩]

theorem threeBlocks_roundTrip : RoundTrips 4096 threeBlocks :=
  roundTrips_of_along 4096 threeBlocks (by decide +kernel)

/-- A single field with an empty value. -/
def emptyValue : List HttpHeaderField := [⟨ascii "x", []⟩]

theorem emptyValue_lost :
    ¬ RoundTrips 4096 [⟨emptyValue, ⟨.never, .noTableUsage, .none⟩⟩] := by
  rintro ⟨⟨compressState, bytes, decompressState, hcompress, hdecompress, -, -⟩, -⟩
  have hbytes : (http2HpackCompressData (startConnection 4096).compressState emptyValue
      ⟨.never, .noTableUsage, .none⟩).2 = .ok [0x10, 0x01, 0x78, 0x00] := by decide +kernel
  have hlost : (http2HpackDecompressData (startConnection 4096).decompressState
      [0x10, 0x01, 0x78, 0x00]).2 ≠ .ok emptyValue := by decide +kernel
  rw [hcompress] at hbytes
  rw [Except.ok.inj hbytes] at hdecompress
  rw [hdecompress] at hlost
  exact hlost rfl

end SimpleServer.Hpack
