/-
**Data types, values and their byte form.**

`datatypes.h`, `datatypes.cpp` and `definitions.h`: the five types with their ids, values, schemas,
and the byte form of a value. A number is its bytes in memory order, a string its 16-bit length and
its characters. Strings are byte strings, as `std::string` is, and a `double` is its eight bytes.

`rowCode` is the code of rows: the byte form of each type tells its own length
(`serializedSizeAt_toBytes`), reads back (`fromBytes_toBytes`), and every segment that lies in the
bytes is the byte form of a value (`toBytes_fromBytes`).
-/

import Yadb.Foundation.Fallible
import Yadb.Foundation.Bytes
import Yadb.Foundation.Codec

namespace Yadb

open Foundation

/-- `std::string`. -/
abbrev Bytes := List UInt8

abbrev TypeId := UInt8

/-- The alternatives of `Value`, in the order of their ids. -/
inductive DataType
  | i32
  | string
  | u32
  | i64
  | f64
  deriving DecidableEq, Repr

namespace DataType

def typeStr : DataType → String
  | .i32 => "I32"
  | .string => "String"
  | .u32 => "U32"
  | .i64 => "I64"
  | .f64 => "F64"

/-- `type_id`. -/
def typeId : DataType → TypeId
  | .i32 => 0
  | .string => 1
  | .u32 => 2
  | .i64 => 3
  | .f64 => 4

/-- The type with an id; `dispatch_type` asserts that there is one. -/
def ofTypeId (id : TypeId) : Option DataType :=
  if id = 0 then some .i32
  else if id = 1 then some .string
  else if id = 2 then some .u32
  else if id = 3 then some .i64
  else if id = 4 then some .f64
  else none

theorem ofTypeId_typeId (type : DataType) : ofTypeId type.typeId = some type := by
  cases type <;> rfl

theorem typeId_of_ofTypeId {id : TypeId} {type : DataType} (found : ofTypeId id = some type) :
    type.typeId = id := by
  unfold ofTypeId at found
  split at found
  · cases found
    exact (‹id = 0›).symm
  · split at found
    · cases found
      exact (‹id = 1›).symm
    · split at found
      · cases found
        exact (‹id = 2›).symm
      · split at found
        · cases found
          exact (‹id = 3›).symm
        · split at found
          · cases found
            exact (‹id = 4›).symm
          · cases found

theorem typeId_injective {type type' : DataType} (same : type.typeId = type'.typeId) :
    type = type' := by
  have found := ofTypeId_typeId type
  rw [same, ofTypeId_typeId, Option.some.injEq] at found
  exact found.symm

end DataType

/-- `IsValidTypeId`, of an id of any width. -/
def isValidTypeId (id : Int) : Bool := decide (0 ≤ id ∧ id < 5)

/-- A `double` is its eight bytes. -/
inductive Value
  | i32 (value : Int32)
  | string (value : Bytes)
  | u32 (value : UInt32)
  | i64 (value : Int64)
  | f64 (value : UInt64)
  deriving DecidableEq

def Value.type : Value → DataType
  | .i32 _ => .i32
  | .string _ => .string
  | .u32 _ => .u32
  | .i64 _ => .i64
  | .f64 _ => .f64

def typeOf (value : Value) : TypeId := value.type.typeId

/-- `RelationAttribute`. -/
structure RelationAttribute where
  name : Bytes
  type : TypeId
  deriving DecidableEq

abbrev Schema := List RelationAttribute

inductive TableType
  | inMemory
  | disk
  deriving DecidableEq, Repr

/-- `TypeError`, with the reason that `what()` gives. -/
inductive TypeError
  | notEnoughBytes (type : DataType) (need have_ : Nat)
  | notEnoughSpace (type : DataType) (need have_ : Nat)
  | noStringLength
  | stringTooLong (length : Nat)
  deriving DecidableEq

def maxStringLength : Nat := 65535

def TypeError.what : TypeError → String
  | .notEnoughBytes type need have_ => "not enough bytes to read " ++ type.typeStr ++ ": need "
      ++ toString need ++ ", have " ++ toString have_
  | .notEnoughSpace type need have_ => "not enough space to write " ++ type.typeStr ++ ": need "
      ++ toString need ++ ", have " ++ toString have_
  | .noStringLength => "not enough bytes to read String length"
  | .stringTooLong length => "String of length " ++ toString length
      ++ " exceeds the maximum length " ++ toString maxStringLength

/-! ### Fixed width types -/

/-- `FixedToBytes`: the bytes written to the front of a buffer with this much space. -/
def fixedToBytes (type : DataType) (width number space : Nat) : Except TypeError Bytes :=
  if space < width then .error (.notEnoughSpace type width space) else .ok (leBytes width number)

/-- `FixedFromBytes`: the number at the front of a buffer. -/
def fixedFromBytes (type : DataType) (width : Nat) (buffer : Bytes) : Except TypeError Nat :=
  if buffer.length < width then .error (.notEnoughBytes type width buffer.length)
  else .ok (leValue (buffer.take width))

/-! ### Strings -/

/-- `sizeof(length_t)`. -/
def lengthSize : Nat := 2

def stringSerializedSizeAt (buffer : Bytes) : Except TypeError Nat :=
  if buffer.length < lengthSize then .error .noStringLength
  else .ok (lengthSize + leValue (buffer.take lengthSize))

def stringFromBytes (buffer : Bytes) : Except TypeError Bytes := do
  let size ← stringSerializedSizeAt buffer
  if buffer.length < size then .error (.notEnoughBytes .string size buffer.length)
  else .ok ((buffer.drop lengthSize).take (size - lengthSize))

def stringToBytes (value : Bytes) (space : Nat) : Except TypeError Bytes :=
  if value.length > maxStringLength then .error (.stringTooLong value.length)
  else if space < lengthSize + value.length then
    .error (.notEnoughSpace .string (lengthSize + value.length) space)
  else .ok (leBytes lengthSize value.length ++ value)

/-! ### Values -/

/-- `serialized_size()`. -/
def Value.serializedSize : Value → Nat
  | .i32 _ => 4
  | .string value => lengthSize + value.length
  | .u32 _ => 4
  | .i64 _ => 8
  | .f64 _ => 8

/-- `to_bytes(buffer)`. -/
def Value.toBytes (value : Value) (space : Nat) : Except TypeError Bytes :=
  match value with
  | .i32 value => fixedToBytes .i32 4 value.toUInt32.toNat space
  | .string value => stringToBytes value space
  | .u32 value => fixedToBytes .u32 4 value.toNat space
  | .i64 value => fixedToBytes .i64 8 value.toUInt64.toNat space
  | .f64 value => fixedToBytes .f64 8 value.toNat space

/-- `T::serialized_size(buffer)`. -/
def DataType.serializedSizeAt (type : DataType) (buffer : Bytes) : Except TypeError Nat :=
  match type with
  | .i32 => .ok 4
  | .string => stringSerializedSizeAt buffer
  | .u32 => .ok 4
  | .i64 => .ok 8
  | .f64 => .ok 8

/-- `T::from_bytes(buffer)`. -/
def DataType.fromBytes (type : DataType) (buffer : Bytes) : Except TypeError Value :=
  match type with
  | .i32 => return .i32 (UInt32.ofNat (← fixedFromBytes .i32 4 buffer)).toInt32
  | .string => return .string (← stringFromBytes buffer)
  | .u32 => return .u32 (UInt32.ofNat (← fixedFromBytes .u32 4 buffer))
  | .i64 => return .i64 (UInt64.ofNat (← fixedFromBytes .i64 8 buffer)).toInt64
  | .f64 => return .f64 (UInt64.ofNat (← fixedFromBytes .f64 8 buffer))

/-! ### The byte form -/

/-- The string is short enough for its length prefix. -/
def Value.Storable : Value → Prop
  | .string value => value.length ≤ maxStringLength
  | _ => True

instance (value : Value) : Decidable value.Storable := by
  cases value <;> unfold Value.Storable <;> infer_instance

/-- The bytes that `to_bytes` writes. -/
def Value.encode : Value → Bytes
  | .i32 value => leBytes 4 value.toUInt32.toNat
  | .string value => leBytes lengthSize value.length ++ value
  | .u32 value => leBytes 4 value.toNat
  | .i64 value => leBytes 8 value.toUInt64.toNat
  | .f64 value => leBytes 8 value.toNat

@[simp] theorem Value.length_encode (value : Value) :
    value.encode.length = value.serializedSize := by
  cases value <;> simp only [encode, serializedSize, length_leBytes, List.length_append]

/-- Given its serialized size, a value that can be stored is written. -/
theorem Value.toBytes_ok {value : Value} (storable : value.Storable) {space : Nat}
    (enough : value.serializedSize ≤ space) : value.toBytes space = .ok value.encode := by
  cases value with
  | string value =>
      refine (if_neg (Nat.not_lt.mpr storable)).trans (if_neg (Nat.not_lt.mpr enough))
  | i32 value => exact if_neg (Nat.not_lt.mpr enough)
  | u32 value => exact if_neg (Nat.not_lt.mpr enough)
  | i64 value => exact if_neg (Nat.not_lt.mpr enough)
  | f64 value => exact if_neg (Nat.not_lt.mpr enough)

/-- Given its serialized size, only a string that is too long is not written. -/
theorem Value.toBytes_error {value : Value} (tooLong : ¬ value.Storable) (space : Nat) :
    ∃ length, value.toBytes space = .error (.stringTooLong length) := by
  cases value with
  | string value => exact ⟨value.length, if_pos (Nat.not_le.mp tooLong)⟩
  | i32 value => exact absurd trivial tooLong
  | u32 value => exact absurd trivial tooLong
  | i64 value => exact absurd trivial tooLong
  | f64 value => exact absurd trivial tooLong

theorem fixedFromBytes_append (type : DataType) {width number : Nat} (fits : number < 256 ^ width)
    (rest : Bytes) : fixedFromBytes type width (leBytes width number ++ rest) = .ok number := by
  have enough : ¬ (leBytes width number ++ rest).length < width := by
    rw [List.length_append, length_leBytes]
    omega
  rw [fixedFromBytes, if_neg enough, List.take_left' (length_leBytes width number),
    leValue_leBytes fits]

theorem stringSerializedSizeAt_append {value : Bytes} (short : value.length ≤ maxStringLength)
    (rest : Bytes) : stringSerializedSizeAt (leBytes lengthSize value.length ++ value ++ rest)
      = .ok (lengthSize + value.length) := by
  have enough : ¬ (leBytes lengthSize value.length ++ value ++ rest).length < lengthSize := by
    rw [List.length_append, List.length_append, length_leBytes]
    omega
  have fits : value.length < 256 ^ lengthSize := by
    unfold maxStringLength at short
    unfold lengthSize
    omega
  rw [stringSerializedSizeAt, if_neg enough, List.append_assoc,
    List.take_left' (length_leBytes lengthSize value.length), leValue_leBytes fits]

/-- **The size at the front of some bytes** is the size of the value written there. -/
theorem DataType.serializedSizeAt_encode {value : Value} (storable : value.Storable)
    (rest : Bytes) :
    value.type.serializedSizeAt (value.encode ++ rest) = .ok value.serializedSize := by
  cases value with
  | string value => exact stringSerializedSizeAt_append storable rest
  | _ => rfl

/-- **A value that was written reads back.** -/
theorem DataType.fromBytes_encode {value : Value} (storable : value.Storable) (rest : Bytes) :
    value.type.fromBytes (value.encode ++ rest) = .ok value := by
  cases value with
  | i32 value =>
      refine (bind_of_ok (fixedFromBytes_append .i32 value.toUInt32.toNat_lt rest) _).trans ?_
      rw [UInt32.ofNat_toNat]
      rfl
  | u32 value =>
      refine (bind_of_ok (fixedFromBytes_append .u32 value.toNat_lt rest) _).trans ?_
      rw [UInt32.ofNat_toNat]
      rfl
  | i64 value =>
      refine (bind_of_ok (fixedFromBytes_append .i64 value.toUInt64.toNat_lt rest) _).trans ?_
      rw [UInt64.ofNat_toNat]
      rfl
  | f64 value =>
      refine (bind_of_ok (fixedFromBytes_append .f64 value.toNat_lt rest) _).trans ?_
      rw [UInt64.ofNat_toNat]
      rfl
  | string value =>
      have enough : ¬ (leBytes lengthSize value.length ++ value ++ rest).length
          < lengthSize + value.length := by
        rw [List.length_append, List.length_append, length_leBytes]
        omega
      have read : stringFromBytes (leBytes lengthSize value.length ++ value ++ rest) = .ok value := by
        refine (bind_of_ok (stringSerializedSizeAt_append storable rest) _).trans
          ((if_neg enough).trans ?_)
        rw [Nat.add_sub_cancel_left, List.append_assoc,
          List.drop_left' (length_leBytes lengthSize value.length), List.take_left]
      exact bind_of_ok read _

/-- The number at the front of enough bytes. -/
theorem fixedFromBytes_segment (type : DataType) {width : Nat} {buffer : Bytes}
    (inside : width ≤ buffer.length) : ∃ number, number < 256 ^ width ∧
      fixedFromBytes type width buffer = .ok number ∧
      leBytes width number = buffer.take width := by
  have length : (buffer.take width).length = width := by
    rw [List.length_take]
    omega
  refine ⟨leValue (buffer.take width), ?_, if_neg (Nat.not_lt.mpr inside), ?_⟩
  · have bound := leValue_lt (buffer.take width)
    rwa [length] at bound
  · have spelled := leBytes_leValue (buffer.take width)
    rwa [length] at spelled

/-- **A segment that lies in the bytes** is the byte form of a value. -/
theorem DataType.fromBytes_segment {type : DataType} {buffer : Bytes} {length : Nat}
    (isSize : type.serializedSizeAt buffer = .ok length) (inside : length ≤ buffer.length) :
    ∃ value : Value, value.type = type ∧ value.Storable ∧ type.fromBytes buffer = .ok value ∧
      value.encode = buffer.take length := by
  cases type with
  | i32 =>
      cases isSize
      obtain ⟨number, fits, run, spelled⟩ := fixedFromBytes_segment .i32 inside
      refine ⟨.i32 (UInt32.ofNat number).toInt32, rfl, trivial, bind_of_ok run _, ?_⟩
      rw [← spelled]
      exact congrArg (leBytes 4) (UInt32.toNat_ofNat_of_lt' fits)
  | u32 =>
      cases isSize
      obtain ⟨number, fits, run, spelled⟩ := fixedFromBytes_segment .u32 inside
      refine ⟨.u32 (UInt32.ofNat number), rfl, trivial, bind_of_ok run _, ?_⟩
      rw [← spelled]
      exact congrArg (leBytes 4) (UInt32.toNat_ofNat_of_lt' fits)
  | i64 =>
      cases isSize
      obtain ⟨number, fits, run, spelled⟩ := fixedFromBytes_segment .i64 inside
      refine ⟨.i64 (UInt64.ofNat number).toInt64, rfl, trivial, bind_of_ok run _, ?_⟩
      rw [← spelled]
      exact congrArg (leBytes 8) (UInt64.toNat_ofNat_of_lt' fits)
  | f64 =>
      cases isSize
      obtain ⟨number, fits, run, spelled⟩ := fixedFromBytes_segment .f64 inside
      refine ⟨.f64 (UInt64.ofNat number), rfl, trivial, bind_of_ok run _, ?_⟩
      rw [← spelled]
      exact congrArg (leBytes 8) (UInt64.toNat_ofNat_of_lt' fits)
  | string =>
      have isSize : stringSerializedSizeAt buffer = .ok length := isSize
      have prefixed : ¬ buffer.length < lengthSize := by
        intro short
        rw [stringSerializedSizeAt, if_pos short] at isSize
        cases isSize
      have sized := isSize
      rw [stringSerializedSizeAt, if_neg prefixed, Except.ok.injEq] at sized
      obtain ⟨number, fits, run, spelled⟩ :=
        fixedFromBytes_segment .string (Nat.not_lt.mp prefixed)
      rw [fixedFromBytes, if_neg prefixed, Except.ok.injEq] at run
      rw [run] at sized
      have chars : ((buffer.drop lengthSize).take number).length = number := by
        rw [List.length_take, List.length_drop]
        omega
      refine ⟨.string ((buffer.drop lengthSize).take number), rfl, ?_, ?_, ?_⟩
      · show ((buffer.drop lengthSize).take number).length ≤ maxStringLength
        rw [chars]
        unfold maxStringLength
        unfold lengthSize at fits
        omega
      · have read : stringFromBytes buffer = .ok ((buffer.drop lengthSize).take number) := by
          refine (bind_of_ok isSize _).trans ((if_neg (Nat.not_lt.mpr inside)).trans ?_)
          rw [← sized, Nat.add_sub_cancel_left]
        exact bind_of_ok read _
      · rw [Value.encode, chars, spelled, ← sized]
        exact (List.take_add ..).symm

/-- **The code of rows.** -/
def rowCode : SelfDelimiting DataType Value where
  fits type value := value.type = type ∧ value.Storable
  encode := Value.encode
  size type buffer := (type.serializedSizeAt buffer).toOption
  decode type buffer := (type.fromBytes buffer).toOption
  size_encode := by
    rintro _ value rest ⟨rfl, storable⟩
    rw [DataType.serializedSizeAt_encode storable rest, Value.length_encode]
    rfl
  decode_encode := by
    rintro _ value rest ⟨rfl, storable⟩
    rw [DataType.fromBytes_encode storable rest]
    rfl
  decode_segment := by
    intro type bytes length isSize inside
    cases found : type.serializedSizeAt bytes with
    | error error =>
        rw [found] at isSize
        cases isSize
    | ok size =>
        rw [found] at isSize
        cases isSize
        obtain ⟨value, isType, storable, read, encoded⟩ := DataType.fromBytes_segment found inside
        refine ⟨value, ⟨isType, storable⟩, ?_, encoded⟩
        rw [read]
        rfl

end Yadb
