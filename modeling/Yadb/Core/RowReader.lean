/-
**Reading rows.**

`row_reader.h` and `row_reader.cpp`: a reader walks over the segments of a row to find the offset of
a column. A failed assertion is a `ReadFailure`, and so is a read outside the schema or the row,
which the source leaves undefined.

* `encodes_read`: over the bytes of values that match the schema, every column reads back its value.
* `rowCodec_roundTrip`: both directions, and a push that throws.
* `tiled_iff`: the segments under a schema cover some bytes exactly when these are the bytes of
  values that match it.
-/

import Yadb.Core.RowBuilder

namespace Yadb

open Foundation

inductive ReadFailure
  /-- `dispatch_type`. -/
  | invalidTypeId (id : TypeId)
  | positionOutOfRange (pos count : Nat)
  | cannotReadSize (type : TypeId) (offset : Nat) (error : TypeError)
  | typeMismatch (expected : DataType) (actual : TypeId)
  | cannotRead (type : DataType) (pos : Nat) (error : TypeError)
  /-- `schema_m[pos]` or `subspan(offset)` past the end. -/
  | pastTheEnd
  deriving DecidableEq

structure RowReader where
  data : Bytes
  schema : Schema

namespace RowReader

/-- `NumValues()`. -/
def numValues (reader : RowReader) : Nat := reader.schema.length

/-- `SizeAt(type, offset)`. -/
def sizeAt (reader : RowReader) (id : TypeId) (offset : Nat) : Except ReadFailure Nat :=
  match DataType.ofTypeId id with
  | none => .error (.invalidTypeId id)
  | some type =>
      if reader.data.length < offset then .error .pastTheEnd
      else match type.serializedSizeAt (reader.data.drop offset) with
        | .error error => .error (.cannotReadSize id offset error)
        | .ok size => .ok size

/-- The loop of `CalculateOffset`, over the columns that it passes. -/
def pass (reader : RowReader) : Nat → Schema → Except ReadFailure Nat
  | offset, [] => .ok offset
  | offset, attr :: schema => do
      let size ← reader.sizeAt attr.type offset
      reader.pass (offset + size) schema

/-- `CalculateOffset(pos)`. -/
def calculateOffset (reader : RowReader) (pos : Nat) : Except ReadFailure Nat :=
  if pos < reader.numValues then reader.pass 0 (reader.schema.take pos)
  else .error (.positionOutOfRange pos reader.numValues)

/-- `GetOffset(pos)`. -/
def getOffset (reader : RowReader) (pos : Nat) : Except ReadFailure Nat :=
  reader.calculateOffset pos

/-- `GetSize(pos)`. -/
def getSize (reader : RowReader) (pos : Nat) : Except ReadFailure Nat :=
  match reader.schema[pos]? with
  | none => .error (.positionOutOfRange pos reader.numValues)
  | some attr => do
      let offset ← reader.calculateOffset pos
      reader.sizeAt attr.type offset

/-- `Get<T>(pos)`. -/
def get (reader : RowReader) (type : DataType) (pos : Nat) : Except ReadFailure Value :=
  match reader.schema[pos]? with
  | none => .error .pastTheEnd
  | some attr =>
      if type.typeId ≠ attr.type then .error (.typeMismatch type attr.type)
      else do
        let offset ← reader.calculateOffset pos
        if reader.data.length < offset then .error .pastTheEnd
        else match type.fromBytes (reader.data.drop offset) with
          | .error error => .error (.cannotRead type pos error)
          | .ok value => .ok value

/-- `GetValue(pos)`. -/
def getValue (reader : RowReader) (pos : Nat) : Except ReadFailure Value :=
  match reader.schema[pos]? with
  | none => .error .pastTheEnd
  | some attr => match DataType.ofTypeId attr.type with
      | none => .error (.invalidTypeId attr.type)
      | some type => reader.get type pos

/-- `Get<String>(pos).value`; what it reads is a string. -/
def getString (reader : RowReader) (pos : Nat) : Except ReadFailure Bytes := do
  match ← reader.get .string pos with
  | .string value => return value
  | _ => throw (.typeMismatch .string 0)

/-- `Get<I32>(pos).value`. -/
def getI32 (reader : RowReader) (pos : Nat) : Except ReadFailure Int32 := do
  match ← reader.get .i32 pos with
  | .i32 value => return value
  | _ => throw (.typeMismatch .i32 0)

/-- `Get<U32>(pos).value`. -/
def getU32 (reader : RowReader) (pos : Nat) : Except ReadFailure UInt32 := do
  match ← reader.get .u32 pos with
  | .u32 value => return value
  | _ => throw (.typeMismatch .u32 0)

/-- The segments `[GetOffset(pos), GetOffset(pos) + GetSize(pos))` follow each other from the front
of the row to its end. -/
def Tiled (reader : RowReader) : Prop :=
  ∃ bound : Nat → Nat, bound 0 = 0 ∧ bound reader.numValues = reader.data.length ∧
    ∀ pos < reader.numValues, reader.getOffset pos = .ok (bound pos) ∧
      ∃ size, reader.getSize pos = .ok size ∧ bound (pos + 1) = bound pos + size

/-! ### Walking over the columns -/

variable {reader : RowReader}

theorem pass_append (reader : RowReader) (offset : Nat) (first second : Schema) :
    reader.pass offset (first ++ second)
      = reader.pass offset first >>= fun middle => reader.pass middle second := by
  induction first generalizing offset with
  | nil => rfl
  | cons attr first ih =>
      rw [List.cons_append, pass, pass, bind_assoc]
      exact congrArg _ (funext fun size => ih (offset + size))

/-- A column has a size exactly where a segment of its type starts. -/
theorem sizeAt_iff {id : TypeId} {offset size : Nat} : reader.sizeAt id offset = .ok size ↔
    ∃ type : DataType, type.typeId = id ∧ offset ≤ reader.data.length ∧
      rowCode.size type (reader.data.drop offset) = some size := by
  have sized : ∀ type : DataType, rowCode.size type (reader.data.drop offset)
      = (type.serializedSizeAt (reader.data.drop offset)).toOption := fun _ => rfl
  constructor
  · intro found
    rw [sizeAt] at found
    cases isType : DataType.ofTypeId id with
    | none =>
        rw [isType] at found
        cases found
    | some type =>
        rw [isType] at found
        refine ⟨type, DataType.typeId_of_ofTypeId isType, ?_⟩
        by_cases short : reader.data.length < offset
        · simp only [if_pos short] at found
          cases found
        · simp only [if_neg short] at found
          refine ⟨Nat.not_lt.mp short, ?_⟩
          rw [sized]
          cases isSize : type.serializedSizeAt (reader.data.drop offset) with
          | error error =>
              rw [isSize] at found
              cases found
          | ok size' =>
              rw [isSize] at found
              cases found
              rfl
  · rintro ⟨type, rfl, inside, isSize⟩
    rw [sized] at isSize
    rw [sizeAt, DataType.ofTypeId_typeId]
    simp only [if_neg (Nat.not_lt.mpr inside)]
    cases found : type.serializedSizeAt (reader.data.drop offset) with
    | error error =>
        rw [found] at isSize
        cases isSize
    | ok size' =>
        rw [found] at isSize
        cases isSize
        rfl

theorem le_of_pass {offset final : Nat} {schema : Schema}
    (passed : reader.pass offset schema = .ok final) : offset ≤ final := by
  induction schema generalizing offset with
  | nil =>
      cases passed
      exact Nat.le_refl _
  | cons attr schema ih =>
      rw [pass] at passed
      cases sized : reader.sizeAt attr.type offset with
      | error failure =>
          rw [sized] at passed
          cases passed
      | ok size =>
          rw [bind_of_ok sized] at passed
          exact Nat.le_trans (Nat.le_add_right _ _) (ih passed)

/-- The types of the columns. -/
def Kinds (schema : Schema) (kinds : List DataType) : Prop :=
  List.Forall₂ (fun attr kind => kind.typeId = attr.type) schema kinds

/-- **The walk ends at the end of the row exactly over segments of the columns' types.** -/
theorem pass_iff_segmented (reader : RowReader) {offset : Nat} {schema : Schema}
    (inside : offset ≤ reader.data.length) :
    reader.pass offset schema = .ok reader.data.length ↔
      ∃ kinds, Kinds schema kinds ∧ rowCode.Segmented kinds (reader.data.drop offset) := by
  induction schema generalizing offset with
  | nil =>
      constructor
      · intro passed
        have atEnd : offset = reader.data.length := Except.ok.inj passed
        refine ⟨[], .nil, ?_⟩
        rw [atEnd, List.drop_length]
        exact .nil
      · rintro ⟨_, _ | _, segmented⟩
        generalize isRest : reader.data.drop offset = rest at segmented
        cases segmented
        have atEnd := List.drop_eq_nil_iff.mp isRest
        exact congrArg Except.ok (Nat.le_antisymm inside atEnd)
  | cons attr schema ih =>
      rw [pass]
      constructor
      · intro passed
        cases sized : reader.sizeAt attr.type offset with
        | error failure =>
            rw [sized] at passed
            cases passed
        | ok size =>
            rw [bind_of_ok sized] at passed
            have fits := le_of_pass passed
            obtain ⟨type, isType, _, isSize⟩ := sizeAt_iff.mp sized
            obtain ⟨kinds, typed, segmented⟩ := (ih fits).mp passed
            refine ⟨type :: kinds, .cons isType typed, .cons isSize ?_ ?_⟩
            · rw [List.length_drop]
              omega
            · rwa [List.drop_drop]
      · rintro ⟨_, _ | ⟨isType, typed⟩, _ | ⟨isSize, fits, segmented⟩⟩
        rename_i type kinds size
        rw [List.length_drop] at fits
        rw [List.drop_drop] at segmented
        have sized : reader.sizeAt attr.type offset = .ok size :=
          sizeAt_iff.mpr ⟨type, isType, inside, isSize⟩
        rw [bind_of_ok sized]
        exact (ih (by omega)).mpr ⟨kinds, typed, segmented⟩

/-- Values of the types of the columns are values that match. -/
theorem fits_iff_matches {schema : Schema} {kinds : List DataType} {values : List Value}
    (typed : Kinds schema kinds) :
    List.Forall₂ rowCode.fits kinds values ↔ Matches schema values := by
  induction typed generalizing values with
  | nil =>
      rw [Matches]
      constructor <;> rintro ⟨⟩ <;> exact .nil
  | @cons attr kind schema kinds isType _ ih =>
      cases values with
      | nil => exact iff_of_false nofun nofun
      | cons value values =>
          rw [Matches, List.forall₂_cons, List.forall₂_cons, ih]
          refine and_congr_left fun _ => and_congr_left fun _ => ?_
          rw [typeOf, ← isType]
          exact ⟨congrArg _, fun same => DataType.typeId_injective same⟩

/-- A schema with values that match has columns of known types. -/
theorem kinds_of_matches {schema : Schema} {values : List Value}
    (matching : Matches schema values) : Kinds schema (values.map Value.type) := by
  induction matching with
  | nil => exact .nil
  | cons first _ ih => exact .cons first.1 ih

/-- **The walk ends at the end of the row exactly over the bytes of values that match.** -/
theorem pass_iff_encodes (reader : RowReader) {offset : Nat} {schema : Schema}
    (inside : offset ≤ reader.data.length) :
    reader.pass offset schema = .ok reader.data.length ↔
      ∃ values, Matches schema values ∧ reader.data.drop offset = rowCode.encodeAll values := by
  rw [pass_iff_segmented reader inside]
  constructor
  · rintro ⟨kinds, typed, segmented⟩
    obtain ⟨values, fits, encoded⟩ := SelfDelimiting.segmented_iff.mp segmented
    exact ⟨values, (fits_iff_matches typed).mp fits, encoded⟩
  · rintro ⟨values, matching, encoded⟩
    have typed := kinds_of_matches matching
    exact ⟨_, typed, SelfDelimiting.segmented_iff.mpr
      ⟨values, (fits_iff_matches typed).mpr matching, encoded⟩⟩

/-- The segment of a value is found where it starts. -/
theorem sizeAt_encode {attr : RelationAttribute} {value : Value} {rest : Bytes} {offset : Nat}
    (isType : typeOf value = attr.type) (storable : value.Storable)
    (inside : offset ≤ reader.data.length)
    (starts : reader.data.drop offset = value.encode ++ rest) :
    reader.sizeAt attr.type offset = .ok value.encode.length := by
  refine sizeAt_iff.mpr ⟨value.type, isType, inside, ?_⟩
  rw [starts]
  exact rowCode.size_encode rest ⟨rfl, storable⟩

/-- The walk passes the values that come first. -/
theorem pass_encode (reader : RowReader) {offset : Nat} {schema : Schema} {values : List Value}
    {rest : Bytes}
    (matching : Matches schema values) (inside : offset ≤ reader.data.length)
    (starts : reader.data.drop offset = rowCode.encodeAll values ++ rest) :
    reader.pass offset schema = .ok (offset + (rowCode.encodeAll values).length) := by
  induction matching generalizing offset with
  | nil => rfl
  | @cons attr value schema values first matching ih =>
      rw [SelfDelimiting.encodeAll_cons, List.append_assoc] at starts
      have starts : reader.data.drop offset
          = value.encode ++ (rowCode.encodeAll values ++ rest) := starts
      have length := congrArg List.length starts
      rw [List.length_drop, List.length_append] at length
      have next : reader.data.drop (offset + value.encode.length)
          = rowCode.encodeAll values ++ rest := by
        rw [← List.drop_drop, starts, List.drop_left]
      rw [pass, bind_of_ok (sizeAt_encode first.1 first.2 inside starts), ih (by omega) next,
        SelfDelimiting.encodeAll_cons, List.length_append, ← Nat.add_assoc]
      rfl

end RowReader

/-! ### Rows of a schema -/

variable {schema : Schema} {values : List Value}

/-- The bytes are those of values that match the schema. -/
def Encodes (schema : Schema) (bytes : Bytes) : Prop :=
  ∃ values, Matches schema values ∧ bytes = rowCode.encodeAll values

theorem Matches.take (matching : Matches schema values) (pos : Nat) :
    Matches (schema.take pos) (values.take pos) :=
  List.forall₂_take pos matching

/-- **Every column reads back its value**, at the offset where the values before it end. -/
theorem encodes_read (matching : Matches schema values) {pos : Nat} (inside : pos < values.length) :
    RowReader.getOffset ⟨rowCode.encodeAll values, schema⟩ pos
        = .ok (rowCode.encodeAll (values.take pos)).length ∧
      RowReader.getSize ⟨rowCode.encodeAll values, schema⟩ pos
        = .ok (rowCode.encode values[pos]).length ∧
      RowReader.getValue ⟨rowCode.encodeAll values, schema⟩ pos = .ok values[pos] := by
  have column : pos < schema.length := by rwa [matching.length_eq]
  obtain ⟨isType, storable⟩ := matching.get column inside
  have isType : typeOf values[pos] = schema[pos].type := isType
  have storable : values[pos].Storable := storable
  have split := SelfDelimiting.encodeAll_split rowCode values inside
  have front : (rowCode.encodeAll (values.take pos)).length
      ≤ (rowCode.encodeAll values).length := by
    rw [split, List.length_append]
    exact Nat.le_add_right _ _
  have starts := SelfDelimiting.drop_encodeAll rowCode values inside
  have offset : RowReader.calculateOffset ⟨rowCode.encodeAll values, schema⟩ pos
      = .ok (rowCode.encodeAll (values.take pos)).length := by
    rw [RowReader.calculateOffset, RowReader.numValues, if_pos column]
    have passed := RowReader.pass_encode ⟨rowCode.encodeAll values, schema⟩
      (matching.take pos) (Nat.zero_le _) (List.drop_zero.trans split)
    rwa [Nat.zero_add] at passed
  have kind : DataType.ofTypeId schema[pos].type = some values[pos].type := by
    rw [← isType]
    exact DataType.ofTypeId_typeId values[pos].type
  refine ⟨offset, ?_, ?_⟩
  · simp only [RowReader.getSize, List.getElem?_eq_getElem column]
    rw [bind_of_ok offset]
    exact RowReader.sizeAt_encode isType storable front starts
  · simp only [RowReader.getValue, List.getElem?_eq_getElem column, kind, RowReader.get]
    have isType : values[pos].type.typeId = schema[pos].type := isType
    rw [if_neg (not_not.mpr isType), bind_of_ok offset, if_neg (Nat.not_lt.mpr front), starts]
    have read := DataType.fromBytes_encode storable (rowCode.encodeAll (values.drop (pos + 1)))
    have read : values[pos].type.fromBytes (rowCode.encode values[pos]
      ++ rowCode.encodeAll (values.drop (pos + 1))) = .ok values[pos] := read
    rw [read]

/-- `Get` of the column's own type. -/
theorem get_encode (matching : Matches schema values) {pos : Nat} {value : Value}
    (isValue : values[pos]? = some value) :
    RowReader.get ⟨rowCode.encodeAll values, schema⟩ value.type pos = .ok value := by
  obtain ⟨inside, rfl⟩ := List.getElem?_eq_some_iff.mp isValue
  have column : pos < schema.length := by rwa [matching.length_eq]
  have isType : typeOf values[pos] = schema[pos].type := (matching.get column inside).1
  have kind : DataType.ofTypeId schema[pos].type = some values[pos].type := by
    rw [← isType]
    exact DataType.ofTypeId_typeId values[pos].type
  have read := (encodes_read matching inside).2.2
  simp only [RowReader.getValue, List.getElem?_eq_getElem column, kind] at read
  exact read

theorem getString_encode (matching : Matches schema values) {pos : Nat} {value : Bytes}
    (isValue : values[pos]? = some (.string value)) :
    RowReader.getString ⟨rowCode.encodeAll values, schema⟩ pos = .ok value :=
  bind_of_ok (get_encode matching isValue) _

theorem getI32_encode (matching : Matches schema values) {pos : Nat} {value : Int32}
    (isValue : values[pos]? = some (.i32 value)) :
    RowReader.getI32 ⟨rowCode.encodeAll values, schema⟩ pos = .ok value :=
  bind_of_ok (get_encode matching isValue) _

theorem getU32_encode (matching : Matches schema values) {pos : Nat} {value : UInt32}
    (isValue : values[pos]? = some (.u32 value)) :
    RowReader.getU32 ⟨rowCode.encodeAll values, schema⟩ pos = .ok value :=
  bind_of_ok (get_encode matching isValue) _

/-- The segments of encoded values cover them. -/
theorem tiled_of_matches (matching : Matches schema values) :
    RowReader.Tiled ⟨rowCode.encodeAll values, schema⟩ := by
  refine ⟨fun pos => (rowCode.encodeAll (values.take pos)).length, ?_, ?_, ?_⟩
  · rfl
  · show (rowCode.encodeAll (values.take schema.length)).length = _
    rw [matching.length_eq, List.take_length]
  · intro pos inside
    have inside : pos < values.length := matching.length_eq ▸ inside
    obtain ⟨offset, size, _⟩ := encodes_read matching inside
    refine ⟨offset, _, size, ?_⟩
    show (rowCode.encodeAll (values.take (pos + 1))).length = _
    rw [List.take_add_one, SelfDelimiting.encodeAll_append, List.length_append,
      List.getElem?_eq_getElem inside]
    exact congrArg _ (congrArg List.length (List.append_nil _))

/-- **The segments cover some bytes exactly when these are a row of the schema.** -/
theorem tiled_iff {bytes : Bytes} : RowReader.Tiled ⟨bytes, schema⟩ ↔ Encodes schema bytes := by
  constructor
  · rintro ⟨bound, first, last, segments⟩
    have walked : RowReader.pass ⟨bytes, schema⟩ 0 schema = .ok bytes.length := by
      cases count : schema.length with
      | zero =>
          rw [List.length_eq_zero_iff] at count
          subst count
          exact congrArg Except.ok (first.symm.trans last)
      | succ final =>
          have inside : final < schema.length := by omega
          obtain ⟨offset, size, isSize, step⟩ := segments final inside
          have offset : RowReader.calculateOffset ⟨bytes, schema⟩ final = .ok (bound final) := offset
          simp only [RowReader.getSize, List.getElem?_eq_getElem inside] at isSize
          rw [bind_of_ok offset] at isSize
          rw [RowReader.calculateOffset, RowReader.numValues, if_pos inside] at offset
          have split : schema = schema.take final ++ [schema[final]] := by
            rw [List.take_append_getElem inside, ← count, List.take_length]
          have isLast : bound final + size = bytes.length := by
            rw [← step, ← count]
            exact last
          have passed := RowReader.pass_append ⟨bytes, schema⟩ 0 (schema.take final) [schema[final]]
          rw [← split, bind_of_ok offset, RowReader.pass, bind_of_ok isSize, isLast] at passed
          exact passed
    exact (RowReader.pass_iff_encodes ⟨bytes, schema⟩ (Nat.zero_le _)).mp walked
  · rintro ⟨values, matching, rfl⟩
    exact tiled_of_matches matching

/-- **The row codec.** `BuildRow` stores values of the schema's types so that every column reads
back its value and the segments cover the row; bytes that the segments cover are built again from
the values read; and a push that throws changes nothing. -/
theorem rowCodec_roundTrip :
    (∀ (schema : Schema) (values : List Value),
      (∀ attr ∈ schema, isValidTypeId attr.type.toNat) →
      List.Forall₂ (fun attr value => typeOf value = attr.type) schema values →
      (∀ value ∈ values, value.Storable) →
      ∃ built, buildRow schema values = .ok built ∧
        (∀ pos (inside : pos < values.length),
          RowReader.getValue ⟨built.data, schema⟩ pos = .ok values[pos]) ∧
        RowReader.Tiled ⟨built.data, schema⟩) ∧
    (∀ (schema : Schema) (bytes : Bytes), RowReader.Tiled ⟨bytes, schema⟩ →
      ∃ values, values.length = schema.length ∧
        (∀ pos (inside : pos < values.length),
          RowReader.getValue ⟨bytes, schema⟩ pos = .ok values[pos]) ∧
        ∃ built, buildRow schema values = .ok built ∧ built.data = bytes) ∧
    (∀ (builder : RowBuilder) (value : Value) (error : TypeError),
      (builder.push value).1 = some error → (builder.push value).2.data = builder.data) := by
  refine ⟨?_, ?_, fun builder value error thrown => (RowBuilder.push_error thrown).2⟩
  · intro schema values _ types storable
    have matching : Matches schema values := by
      rw [List.forall₂_iff_get] at types
      exact List.forall₂_iff_get.mpr ⟨types.1, fun pos inside inside' =>
        ⟨types.2 pos inside inside', storable _ (List.get_mem values _)⟩⟩
    obtain ⟨built, run, data⟩ := buildRow_ok matching
    refine ⟨built, run, ?_, ?_⟩
    · intro pos inside
      rw [data]
      exact (encodes_read matching inside).2.2
    · rw [data]
      exact tiled_of_matches matching
  · intro schema bytes tiled
    obtain ⟨values, matching, rfl⟩ := tiled_iff.mp tiled
    refine ⟨values, matching.length_eq.symm, ?_, buildRow_ok matching⟩
    intro pos inside
    exact (encodes_read matching inside).2.2

/-- A row of a string and a number. -/
theorem idAndName_roundTrip : ∃ built, buildRow [⟨[110], 1⟩, ⟨[105], 0⟩] [.string [7, 8], .i32 5]
    = .ok built ∧ RowReader.getValue ⟨built.data, [⟨[110], 1⟩, ⟨[105], 0⟩]⟩ 1 = .ok (.i32 5) := by
  obtain ⟨built, run, read, _⟩ := rowCodec_roundTrip.1 [⟨[110], 1⟩, ⟨[105], 0⟩]
    [.string [7, 8], .i32 5] (by decide) (.cons (by decide) (.cons (by decide) .nil)) (by decide)
  exact ⟨built, run, read 1 (by decide)⟩

end Yadb
