/-
**Building rows.**

`row_builder.h`, `row_builder.cpp` and `BuildRow` of `table_handle.cpp`: a builder owns a buffer, of
which the first `size` bytes are the row; `push` makes room and writes one value after them.
`buildRow` checks a list of values against a schema and pushes them.

A builder that runs out of memory throws `bad_alloc`, which is not modelled.
-/

import Yadb.Core.Datatypes

namespace Yadb

open Foundation

/-- The buffer has as many bytes as it has capacity. -/
structure RowBuilder where
  size : Nat
  buffer : Bytes
  size_le : size ≤ buffer.length

/-- What `BuildRow` throws. -/
inductive RowError
  | countMismatch (expected got : Nat)
  | typeMismatch (column : Nat) (expected actual : TypeId)
  | push (error : TypeError)
  deriving DecidableEq

/-- `TypeName`. -/
def typeName (id : TypeId) : String :=
  match DataType.ofTypeId id with
  | some type => type.typeStr
  | none => "<invalid type>"

def RowError.what : RowError → String
  | .countMismatch expected got =>
      "Value count mismatch: expected " ++ toString expected ++ ", got " ++ toString got
  | .typeMismatch column expected actual => "Type mismatch at column " ++ toString column
      ++ ": expected " ++ typeName expected ++ ", got " ++ typeName actual
  | .push error => error.what

namespace RowBuilder

def empty : RowBuilder := ⟨0, [], Nat.le_refl 0⟩

def capacity (builder : RowBuilder) : Nat := builder.buffer.length

/-- `Data()`. -/
def data (builder : RowBuilder) : Bytes := builder.buffer.take builder.size

/-- `AllocateSpace(size)`: the buffer is moved to a larger one; the new bytes, which nothing reads
before they are written, are zero here. -/
def allocateSpace (builder : RowBuilder) (size : Nat) : RowBuilder where
  size := builder.size
  buffer := builder.buffer ++ List.replicate (size - builder.capacity) 0
  size_le := by
    have inside := builder.size_le
    rw [List.length_append]
    omega

/-- Bytes written after the row. -/
def append (builder : RowBuilder) (bytes : Bytes)
    (room : builder.size + bytes.length ≤ builder.buffer.length) : RowBuilder where
  size := builder.size + bytes.length
  buffer := overwrite builder.buffer builder.size bytes
  size_le := by rwa [length_overwrite room]

/-- `Push(value)`: with the error it throws, if any, the builder it leaves. -/
def push (builder : RowBuilder) (value : Value) : Option TypeError × RowBuilder :=
  let requiredSize := builder.size + value.serializedSize
  let builder := if requiredSize > builder.capacity then builder.allocateSpace requiredSize
    else builder
  match value.toBytes (builder.capacity - builder.size) with
  | .error error => (some error, builder)
  | .ok bytes =>
      -- `to_bytes` writes inside the span it is given
      if room : builder.size + bytes.length ≤ builder.buffer.length then
        (none, builder.append bytes room)
      else (none, builder)

/-- The loop of `BuildRow`, from a column on. -/
def pushColumns : RowBuilder → Nat → Schema → List Value → Except RowError RowBuilder
  | builder, column, attr :: schema, value :: values =>
      if typeOf value ≠ attr.type then
        .error (.typeMismatch column attr.type (typeOf value))
      else match builder.push value with
        | (some error, _) => .error (.push error)
        | (none, builder) => pushColumns builder (column + 1) schema values
  | builder, _, _, _ => .ok builder

end RowBuilder

/-- `TableHandle::BuildRow`. -/
def buildRow (schema : Schema) (values : List Value) : Except RowError RowBuilder :=
  if values.length ≠ schema.length then .error (.countMismatch schema.length values.length)
  else RowBuilder.pushColumns .empty 0 schema values

/-! ### What a push does -/

namespace RowBuilder

variable {builder : RowBuilder} {value : Value}

theorem length_data (builder : RowBuilder) : builder.data.length = builder.size := by
  rw [data, List.length_take]
  exact Nat.min_eq_left builder.size_le

theorem data_allocateSpace (builder : RowBuilder) (size : Nat) :
    (builder.allocateSpace size).data = builder.data :=
  List.take_append_of_le_length builder.size_le

theorem data_append {bytes : Bytes} (room : builder.size + bytes.length ≤ builder.buffer.length) :
    (builder.append bytes room).data = builder.data ++ bytes := by
  have length : (builder.buffer.take builder.size ++ bytes).length
      = builder.size + bytes.length := by
    rw [List.length_append]
    exact congrArg (· + bytes.length) builder.length_data
  show (overwrite builder.buffer builder.size bytes).take (builder.size + bytes.length) = _
  rw [overwrite, List.take_left' length]
  rfl

/-- The buffer is large enough once room was made. -/
theorem room_push (builder : RowBuilder) (value : Value) :
    ∃ roomy : RowBuilder, roomy.size = builder.size ∧ roomy.data = builder.data ∧
      builder.size + value.serializedSize ≤ roomy.capacity ∧
      (if builder.size + value.serializedSize > builder.capacity then
        builder.allocateSpace (builder.size + value.serializedSize) else builder) = roomy := by
  refine ⟨_, ?_, ?_, ?_, rfl⟩
  · split <;> rfl
  · split
    · exact data_allocateSpace builder _
    · rfl
  · split
    · show _ ≤ (builder.buffer ++ List.replicate _ 0).length
      rw [List.length_append, List.length_replicate]
      unfold capacity
      omega
    · omega

/-- **A push that succeeds appends the byte form of the value.** -/
theorem push_ok (builder : RowBuilder) (storable : value.Storable) : ∃ pushed : RowBuilder,
    builder.push value = (none, pushed) ∧ pushed.data = builder.data ++ value.encode := by
  obtain ⟨roomy, sameSize, sameData, enough, isRoomy⟩ := room_push builder value
  have space : value.serializedSize ≤ roomy.capacity - roomy.size := by
    rw [sameSize]
    omega
  have room : roomy.size + value.encode.length ≤ roomy.buffer.length := by
    rw [Value.length_encode, sameSize]
    exact enough
  refine ⟨roomy.append value.encode room, ?_, ?_⟩
  · simp only [push, isRoomy, Value.toBytes_ok storable space, dif_pos room]
  · rw [data_append, sameData]

/-- **A push that throws leaves the row as it was.** -/
theorem push_error {error : TypeError} (thrown : (builder.push value).1 = some error) :
    ¬ value.Storable ∧ (builder.push value).2.data = builder.data := by
  by_cases storable : value.Storable
  · obtain ⟨pushed, run, _⟩ := push_ok builder storable
    rw [run] at thrown
    cases thrown
  · obtain ⟨roomy, _, sameData, _, isRoomy⟩ := room_push builder value
    obtain ⟨length, failed⟩ := Value.toBytes_error storable (roomy.capacity - roomy.size)
    refine ⟨storable, ?_⟩
    simp only [push, isRoomy, failed]
    exact sameData

/-- The loop pushes every value. -/
theorem pushColumns_ok (builder : RowBuilder) (column : Nat) {schema : Schema}
    {values : List Value}
    (matching : List.Forall₂ (fun attr value => typeOf value = attr.type ∧
      value.Storable) schema values) : ∃ built, pushColumns builder column schema values = .ok built ∧
      built.data = builder.data ++ rowCode.encodeAll values := by
  induction matching generalizing builder column with
  | nil => exact ⟨builder, rfl, (List.append_nil _).symm⟩
  | @cons attr value schema values first _ ih =>
      obtain ⟨pushed, run, data⟩ := push_ok builder first.2
      obtain ⟨built, rest, allData⟩ := ih pushed (column + 1)
      refine ⟨built, ?_, ?_⟩
      · rw [pushColumns, if_neg (not_not.mpr first.1), run]
        exact rest
      · rw [allData, data, SelfDelimiting.encodeAll_cons, List.append_assoc]
        rfl

/-- The loop pushes nothing else. -/
theorem matching_of_pushColumns {schema : Schema} {values : List Value} {column : Nat}
    {built : RowBuilder} (length : values.length = schema.length)
    (run : pushColumns builder column schema values = .ok built) :
    List.Forall₂ (fun attr value => typeOf value = attr.type ∧ value.Storable)
      schema values := by
  induction schema generalizing builder column values with
  | nil =>
      rw [List.length_nil, List.length_eq_zero_iff] at length
      rw [length]
      exact .nil
  | cons attr schema ih =>
      cases values with
      | nil => cases length
      | cons value values =>
          rw [pushColumns] at run
          by_cases isType : typeOf value = attr.type
          · rw [if_neg (not_not.mpr isType)] at run
            by_cases storable : value.Storable
            · obtain ⟨pushed, pushRun, _⟩ := push_ok builder storable
              rw [pushRun] at run
              exact .cons ⟨isType, storable⟩ (ih (Nat.succ.inj length) run)
            · obtain ⟨roomy, _, _, _, isRoomy⟩ := room_push builder value
              obtain ⟨long, failed⟩ := Value.toBytes_error storable (roomy.capacity - roomy.size)
              have thrown : (builder.push value).1 = some (.stringTooLong long) := by
                simp only [push, isRoomy, failed]
              generalize builder.push value = result at run thrown
              obtain ⟨error, pushed⟩ := result
              cases thrown
              cases run
          · rw [if_pos isType] at run
            cases run

end RowBuilder

/-- The values have the types of the schema, and can be stored. -/
def Matches (schema : Schema) (values : List Value) : Prop :=
  List.Forall₂ (fun attr value => typeOf value = attr.type ∧ value.Storable) schema values

/-- **`BuildRow` succeeds exactly on values that match the schema**, with their byte forms one after
the other. -/
theorem buildRow_ok {schema : Schema} {values : List Value} (matching : Matches schema values) :
    ∃ built, buildRow schema values = .ok built ∧ built.data = rowCode.encodeAll values := by
  obtain ⟨built, run, data⟩ := RowBuilder.pushColumns_ok .empty 0 matching
  refine ⟨built, ?_, data⟩
  rw [buildRow, if_neg (not_not.mpr matching.length_eq.symm), run]

theorem matches_of_buildRow {schema : Schema} {values : List Value} {built : RowBuilder}
    (run : buildRow schema values = .ok built) : Matches schema values := by
  rw [buildRow] at run
  by_cases length : values.length = schema.length
  · rw [if_neg (not_not.mpr length)] at run
    exact RowBuilder.matching_of_pushColumns length run
  · rw [if_pos length] at run
    cases run

end Yadb
