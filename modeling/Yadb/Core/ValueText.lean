/-
**Values as text.**

`from_string` and `to_string` of `datatypes.cpp`, with `ValueFromString` and `ToString`, which choose
by the type. Numbers are read by `std::from_chars` and written by `std::format`. What these do with a
`double` is a parameter (`Doubles`).

* `Spelled`: digits, with a minus in front of them where the type has one.
* `numberFromString_iff`: which texts are read as which number, and which are refused as out of range
  or as no number.
* `text_roundTrip`: a value is read back from its text, and a text that is read is written again in
  its normal form.
-/

import Mathlib.Data.List.TakeWhile
import Yadb.Core.Datatypes
import Yadb.Foundation.Decimal

namespace Yadb

open Foundation

/-- The characters of a text, which are ASCII. -/
def ascii (text : String) : Bytes := text.toList.map fun character => UInt8.ofNat character.toNat

/-! ### Reading numbers -/

/-- What `std::from_chars` returns: where the number ends is of interest only if it has one. -/
inductive FromChars (Number : Type)
  | invalid
  | outOfRange
  | read (number : Number) (rest : Bytes)

/-- A minus is taken as a sign if the type has one. -/
def splitSign (signed : Bool) : Bytes → Bool × Bytes
  | [] => (false, [])
  | first :: rest => if signed ∧ first = 45 then (true, rest) else (false, first :: rest)

/-- `std::from_chars`, for the integers from `low` to `high`: the longest run of digits is taken. -/
def integerFromChars (signed : Bool) (low high : Int) (text : Bytes) : FromChars Int :=
  let (negative, unsigned) := splitSign signed text
  let digits := unsigned.takeWhile fun character => IsDigit character
  let number : Int := if negative then -(numeral digits : Int) else numeral digits
  if digits = [] then .invalid
  else if number < low ∨ high < number then .outOfRange
  else .read number (unsigned.drop digits.length)

/-- The same for `double`, `std::format("{}", value)`, and `<=>`, which has no answer for some. -/
structure Doubles where
  fromChars : Bytes → FromChars UInt64
  format : UInt64 → Bytes
  order : UInt64 → UInt64 → Option Ordering

inductive TextError
  | outOfRange (text : Bytes) (type : DataType)
  | notValid (text : Bytes) (type : DataType)
  | tooLong (error : TypeError)
  | invalidTypeId (id : TypeId)

/-- The reasons of the errors. -/
def TextError.what : TextError → Bytes
  | .outOfRange text type => ascii "'" ++ text ++ ascii "' is out of range for " ++ ascii type.typeStr
  | .notValid text type => ascii "'" ++ text ++ ascii "' is not a valid " ++ ascii type.typeStr
  | .tooLong error => ascii error.what
  | .invalidTypeId id => ascii "invalid type id " ++ decimal id.toNat

/-- `NumberFromString`: the range is looked at first, and then what follows the number. -/
def numberFromString {Number : Type} (type : DataType) (fromChars : Bytes → FromChars Number)
    (text : Bytes) : Except TextError Number :=
  match fromChars text with
  | .outOfRange => .error (.outOfRange text type)
  | .invalid => .error (.notValid text type)
  | .read number rest => if rest = [] then .ok number else .error (.notValid text type)

/-- `String::from_string`. -/
def stringFromString (text : Bytes) : Except TextError Bytes :=
  if text.length > maxStringLength then .error (.tooLong (.stringTooLong text.length)) else .ok text

/-- The bounds of the integer types, and whether they have a sign. -/
def i32FromChars : Bytes → FromChars Int := integerFromChars true (-2147483648) 2147483647
def u32FromChars : Bytes → FromChars Int := integerFromChars false 0 4294967295
def i64FromChars : Bytes → FromChars Int :=
  integerFromChars true (-9223372036854775808) 9223372036854775807

/-- `ValueFromString`. -/
def valueFromString (doubles : Doubles) (id : TypeId) (text : Bytes) : Except TextError Value :=
  match DataType.ofTypeId id with
  | none => .error (.invalidTypeId id)
  | some .i32 => (numberFromString .i32 i32FromChars text).map fun number => .i32 (Int32.ofInt number)
  | some .string => (stringFromString text).map .string
  | some .u32 => (numberFromString .u32 u32FromChars text).map fun number => .u32 (UInt32.ofNat number.toNat)
  | some .i64 => (numberFromString .i64 i64FromChars text).map fun number => .i64 (Int64.ofInt number)
  | some .f64 => (numberFromString .f64 doubles.fromChars text).map .f64

/-- Of a program that meets no `double`. -/
def noDoubles : Doubles := ⟨fun _ => .invalid, fun _ => [], fun _ _ => none⟩

/-- `ToString`. -/
def toText (doubles : Doubles) : Value → Bytes
  | .i32 value => integerText value.toInt
  | .string value => value
  | .u32 value => decimal value.toNat
  | .i64 value => integerText value.toInt
  | .f64 value => doubles.format value

/-- `<=>` of two values of one type. Strings are compared byte by byte. -/
def Value.order (doubles : Doubles) : Value → Value → Option Ordering
  | .i32 first, .i32 second => some (compare first.toInt second.toInt)
  | .string first, .string second => some (compare first second)
  | .u32 first, .u32 second => some (compare first.toNat second.toNat)
  | .i64 first, .i64 second => some (compare first.toInt second.toInt)
  | .f64 first, .f64 second => doubles.order first second
  | _, _ => none

/-! ### Which texts are numbers -/

/-- Digits, with a minus in front of them where the type has one. -/
inductive Spelled (signed : Bool) : Bytes → Int → Prop
  | positive {digits : Bytes} : digits ≠ [] → (∀ digit ∈ digits, IsDigit digit) →
      Spelled signed digits (numeral digits)
  | negative {digits : Bytes} : signed = true → digits ≠ [] → (∀ digit ∈ digits, IsDigit digit) →
      Spelled signed (45 :: digits) (-(numeral digits : Int))

/-- The text does not go on with a digit. -/
def Ended (rest : Bytes) : Prop := ∀ character ∈ rest.head?, ¬ IsDigit character

theorem takeWhile_digits {digits rest : Bytes} (all : ∀ digit ∈ digits, IsDigit digit)
    (ended : Ended rest) : (digits ++ rest).takeWhile (fun character => decide (IsDigit character))
      = digits := by
  rw [List.takeWhile_append_of_pos (by simpa using all)]
  cases rest with
  | nil => rw [List.takeWhile_nil, List.append_nil]
  | cons first rest =>
      have notDigit : ¬ IsDigit first := ended first rfl
      rw [List.takeWhile_cons_of_neg (by simpa using notDigit), List.append_nil]

/-- **A number is taken as far as it goes.** -/
theorem integerFromChars_spelled {signed : Bool} {low high number : Int} {text rest : Bytes}
    (spelled : Spelled signed text number) (ended : Ended rest) :
    integerFromChars signed low high (text ++ rest)
      = if number < low ∨ high < number then .outOfRange else .read number rest := by
  cases spelled with
  | positive notEmpty all =>
      obtain ⟨first, digits, rfl⟩ := List.exists_cons_of_ne_nil notEmpty
      have notMinus : first ≠ 45 := by
        rintro rfl
        exact absurd (all 45 List.mem_cons_self) (by decide)
      have split : splitSign signed (first :: digits ++ rest) = (false, first :: digits ++ rest) :=
        if_neg fun both => notMinus both.2
      simp only [integerFromChars, split, takeWhile_digits all ended, if_neg notEmpty,
        List.drop_left', Bool.false_eq_true, if_false]
  | @negative digits isSigned notEmpty all =>
      have split : splitSign signed (45 :: digits ++ rest) = (true, digits ++ rest) :=
        if_pos ⟨isSigned, rfl⟩
      simp only [integerFromChars, split, takeWhile_digits all ended, if_neg notEmpty,
        List.drop_left', if_true]

/-- Where there is no number, the text starts with none. -/
theorem integerFromChars_cases (signed : Bool) (low high : Int) (text : Bytes) :
    integerFromChars signed low high text = .invalid ∨
      ∃ front number rest, text = front ++ rest ∧ Spelled signed front number ∧ Ended rest := by
  have scanned : ∀ unsigned : Bytes, ∃ digits rest, unsigned = digits ++ rest ∧
      unsigned.takeWhile (fun character => decide (IsDigit character)) = digits ∧
        (∀ digit ∈ digits, IsDigit digit) ∧ Ended rest := by
    intro unsigned
    refine ⟨_, _, List.takeWhile_append_dropWhile.symm, rfl, ?_, ?_⟩
    · intro digit member
      exact of_decide_eq_true (List.mem_takeWhile_imp
        (p := fun character => decide (IsDigit character)) member)
    · intro character isHead isDigit
      have stopped := List.head?_dropWhile_not
        (fun character => decide (IsDigit character)) unsigned
      rw [Option.mem_def.mp isHead] at stopped
      simp [isDigit] at stopped
  by_cases minus : ∃ unsigned, signed = true ∧ text = 45 :: unsigned
  · obtain ⟨unsigned, isSigned, rfl⟩ := minus
    obtain ⟨digits, rest, rfl, isScanned, all, ended⟩ := scanned unsigned
    have split : splitSign signed (45 :: (digits ++ rest)) = (true, digits ++ rest) :=
      if_pos ⟨isSigned, rfl⟩
    by_cases nothing : digits = []
    · left
      simp only [integerFromChars, split, isScanned, if_pos nothing]
    · exact Or.inr ⟨45 :: digits, _, rest, rfl, .negative isSigned nothing all, ended⟩
  · obtain ⟨digits, rest, rfl, isScanned, all, ended⟩ := scanned text
    have split : splitSign signed (digits ++ rest) = (false, digits ++ rest) := by
      cases isText : digits ++ rest with
      | nil => rfl
      | cons first others =>
          refine if_neg fun both => minus ⟨others, both.1, ?_⟩
          rw [isText, both.2]
    by_cases nothing : digits = []
    · left
      simp only [integerFromChars, split, isScanned, if_pos nothing]
    · exact Or.inr ⟨digits, _, rest, rfl, .positive nothing all, ended⟩

/-- The text starts with a number out of the range, up to the end of its digits. -/
def StartsOutside (signed : Bool) (low high : Int) (text : Bytes) : Prop :=
  ∃ front number rest, text = front ++ rest ∧ Spelled signed front number ∧ Ended rest ∧
    (number < low ∨ high < number)

theorem numberFromString_cases {Number : Type} (type : DataType)
    (fromChars : Bytes → FromChars Number) (text : Bytes) :
    (∃ number, numberFromString type fromChars text = .ok number) ∨
      numberFromString type fromChars text = .error (.outOfRange text type) ∨
      numberFromString type fromChars text = .error (.notValid text type) := by
  rw [numberFromString]
  cases fromChars text with
  | invalid => exact Or.inr (Or.inr rfl)
  | outOfRange => exact Or.inr (Or.inl rfl)
  | read number rest =>
      by_cases whole : rest = []
      · exact Or.inl ⟨number, if_pos whole⟩
      · exact Or.inr (Or.inr (if_neg whole))

section Numbers

variable {signed : Bool} {low high number : Int} {text : Bytes}

/-- The number of a text is that of its digits. -/
theorem Spelled.inj {number' : Int} (spelled : Spelled signed text number)
    (spelled' : Spelled signed text number') : number = number' := by
  cases spelled with
  | positive notEmpty all =>
      cases spelled' with
      | positive _ _ => rfl
      | negative _ _ _ => exact absurd (all 45 List.mem_cons_self) (by decide)
  | negative _ _ _ =>
      cases spelled' with
      | positive _ all => exact absurd (all 45 List.mem_cons_self) (by decide)
      | negative _ _ _ => rfl

/-- Only the text of a number in the range is read. -/
theorem numberFromString_ok_iff (type : DataType) :
    numberFromString type (integerFromChars signed low high) text = .ok number ↔
      Spelled signed text number ∧ low ≤ number ∧ number ≤ high := by
  have ended : Ended [] := fun _ => by rintro ⟨⟩
  constructor
  · intro isRead
    rw [numberFromString] at isRead
    rcases integerFromChars_cases signed low high text with
      invalid | ⟨front, number', rest, rfl, spelled, ends⟩
    · rw [invalid] at isRead
      cases isRead
    · rw [integerFromChars_spelled spelled ends] at isRead
      by_cases outside : number' < low ∨ high < number'
      · rw [if_pos outside] at isRead
        cases isRead
      · rw [if_neg outside] at isRead
        by_cases whole : rest = []
        · rw [whole] at isRead ⊢
          cases isRead
          rw [List.append_nil]
          exact ⟨spelled, by omega⟩
        · simp only [if_neg whole] at isRead
          cases isRead
  · rintro ⟨spelled, lower, upper⟩
    have read : integerFromChars signed low high (text ++ []) =
        if number < low ∨ high < number then .outOfRange else .read number [] :=
      integerFromChars_spelled spelled ended
    rw [List.append_nil, if_neg (by omega)] at read
    rw [numberFromString, read]
    rfl

/-- **A number out of the range is reported as such**, whatever follows it. -/
theorem numberFromString_outOfRange_iff (type : DataType) :
    numberFromString type (integerFromChars signed low high) text = .error (.outOfRange text type) ↔
      StartsOutside signed low high text := by
  constructor
  · intro isRead
    rw [numberFromString] at isRead
    rcases integerFromChars_cases signed low high text with
      invalid | ⟨front, number', rest, rfl, spelled, ends⟩
    · rw [invalid] at isRead
      cases isRead
    · rw [integerFromChars_spelled spelled ends] at isRead
      by_cases outside : number' < low ∨ high < number'
      · exact ⟨front, number', rest, rfl, spelled, ends, outside⟩
      · rw [if_neg outside] at isRead
        dsimp only at isRead
        split at isRead <;> cases isRead
  · rintro ⟨front, number, rest, rfl, spelled, ends, outside⟩
    rw [numberFromString, integerFromChars_spelled spelled ends, if_pos outside]

/-- **What is read of a text**: the number that it is, if it is one in the range. Otherwise it is
reported as out of range if it starts with a number that is, whatever follows, and as no number in
all other cases. -/
theorem numberFromString_iff (type : DataType) (signed : Bool) (low high : Int) (text : Bytes) :
    (∀ number, numberFromString type (integerFromChars signed low high) text = .ok number ↔
      Spelled signed text number ∧ low ≤ number ∧ number ≤ high) ∧
    (numberFromString type (integerFromChars signed low high) text = .error (.outOfRange text type) ↔
      StartsOutside signed low high text) ∧
    (numberFromString type (integerFromChars signed low high) text = .error (.notValid text type) ↔
      ¬ StartsOutside signed low high text ∧
        ∀ number, Spelled signed text number → number < low ∨ high < number) := by
  refine ⟨fun number => numberFromString_ok_iff type, numberFromString_outOfRange_iff type, ?_⟩
  constructor
  · intro notValid
    constructor
    · intro outside
      rw [(numberFromString_outOfRange_iff type).mpr outside] at notValid
      cases notValid
    · intro number spelled
      by_contra inside
      rw [(numberFromString_ok_iff type).mpr ⟨spelled, by omega⟩] at notValid
      cases notValid
  · rintro ⟨inside, allOutside⟩
    rcases numberFromString_cases type (integerFromChars signed low high) text with
      ⟨number, isOk⟩ | isOutside | notValid
    · obtain ⟨spelled, lower, upper⟩ := (numberFromString_ok_iff type).mp isOk
      have outside := allOutside number spelled
      omega
    · exact absurd ((numberFromString_outOfRange_iff type).mp isOutside) inside
    · exact notValid

end Numbers

/-! ### Texts and values -/

theorem spelled_decimal (signed : Bool) (number : Nat) : Spelled signed (decimal number) number := by
  have spelled : Spelled signed (decimal number) (numeral (decimal number) : Int) :=
    .positive (decimal_ne_nil number) (decimal_isDigit number)
  rw [numeral_decimal] at spelled
  exact spelled

theorem spelled_integerText (number : Int) : Spelled true (integerText number) number := by
  cases number with
  | ofNat number => exact spelled_decimal true number
  | negSucc number =>
      have spelled : Spelled true (45 :: decimal (number + 1))
          (-(numeral (decimal (number + 1)) : Int)) :=
        .negative rfl (decimal_ne_nil _) (decimal_isDigit _)
      rw [numeral_decimal] at spelled
      exact spelled

/-- No zeros in front, and no minus in front of a zero. -/
def normalForm : Bytes → Bytes
  | [] => []
  | first :: rest =>
      if first ≠ 45 then withoutZeros (first :: rest)
      else if numeral rest = 0 then [48] else 45 :: withoutZeros rest

/-- A number is written in its normal form. -/
theorem integerText_of_spelled {signed : Bool} {text : Bytes} {number : Int}
    (spelled : Spelled signed text number) : integerText number = normalForm text := by
  cases spelled with
  | positive notEmpty all =>
      obtain ⟨first, digits, rfl⟩ := List.exists_cons_of_ne_nil notEmpty
      have notMinus : first ≠ 45 := by
        rintro rfl
        exact absurd (all 45 List.mem_cons_self) (by decide)
      rw [normalForm, if_pos notMinus, ← decimal_numeral all]
      rfl
  | @negative digits _ notEmpty all =>
      rw [normalForm, if_neg (not_not.mpr rfl)]
      by_cases isZero : numeral digits = 0
      · rw [if_pos isZero, isZero]
        rfl
      · obtain ⟨number, isNumber⟩ := Nat.exists_eq_succ_of_ne_zero isZero
        rw [if_neg isZero, ← decimal_numeral all, isNumber]
        rfl

theorem int32_bounds (value : Int32) : -2147483648 ≤ value.toInt ∧ value.toInt ≤ 2147483647 :=
  ⟨value.le_toInt, Int.le_sub_one_of_lt value.toInt_lt⟩

theorem int64_bounds (value : Int64) :
    -9223372036854775808 ≤ value.toInt ∧ value.toInt ≤ 9223372036854775807 :=
  ⟨value.le_toInt, Int.le_sub_one_of_lt value.toInt_lt⟩

/-- **A value is read back from its text.** -/
theorem valueFromString_toText (doubles : Doubles) {value : Value} (storable : value.Storable)
    (notDouble : value.type ≠ .f64) :
    valueFromString doubles (typeOf value) (toText doubles value) = .ok value := by
  rw [valueFromString, typeOf, DataType.ofTypeId_typeId]
  cases value with
  | i32 value =>
      have read : numberFromString .i32 i32FromChars (integerText value.toInt) = .ok value.toInt :=
        (numberFromString_ok_iff .i32).mpr ⟨spelled_integerText _, int32_bounds value⟩
      simp only [Value.type, toText, read, Except.map, Int32.ofInt_toInt]
  | string value =>
      have short : ¬ value.length > maxStringLength := not_lt.mpr storable
      have read : stringFromString value = .ok value := if_neg short
      simp only [Value.type, toText, read, Except.map]
  | u32 value =>
      have bounds : (0 : Int) ≤ value.toNat ∧ (value.toNat : Int) ≤ 4294967295 := by
        have := value.toNat_lt
        omega
      have read : numberFromString .u32 u32FromChars (decimal value.toNat) = .ok (value.toNat : Int) :=
        (numberFromString_ok_iff .u32).mpr ⟨spelled_decimal false _, bounds⟩
      simp only [Value.type, toText, read, Except.map, Int.toNat_natCast, UInt32.ofNat_toNat]
  | i64 value =>
      have read : numberFromString .i64 i64FromChars (integerText value.toInt) = .ok value.toInt :=
        (numberFromString_ok_iff .i64).mpr ⟨spelled_integerText _, int64_bounds value⟩
      simp only [Value.type, toText, read, Except.map, Int64.ofInt_toInt]
  | f64 value => exact absurd rfl notDouble

/-- A text is read as a value of the type. -/
theorem typeOf_valueFromString {doubles : Doubles} {id : TypeId} {text : Bytes} {value : Value}
    (isRead : valueFromString doubles id text = .ok value) : typeOf value = id := by
  rw [valueFromString] at isRead
  cases isType : DataType.ofTypeId id with
  | none =>
      rw [isType] at isRead
      cases isRead
  | some type =>
      rw [isType] at isRead
      rw [← DataType.typeId_of_ofTypeId isType]
      cases type <;> obtain ⟨_, _, rfl⟩ := of_map_ok isRead <;> rfl

/-- **A text that is read is written again in its normal form**, and a string as it is. -/
theorem toText_of_valueFromString {doubles : Doubles} {id : TypeId} {text : Bytes} {value : Value}
    (isRead : valueFromString doubles id text = .ok value) (notDouble : value.type ≠ .f64) :
    value.Storable ∧
      toText doubles value = if value.type = .string then text else normalForm text := by
  rw [valueFromString] at isRead
  cases isType : DataType.ofTypeId id with
  | none =>
      rw [isType] at isRead
      cases isRead
  | some type =>
      rw [isType] at isRead
      cases type with
      | i32 =>
          obtain ⟨number, isNumber, rfl⟩ := of_map_ok isRead
          obtain ⟨spelled, lower, upper⟩ := (numberFromString_ok_iff .i32).mp isNumber
          have same : (Int32.ofInt number).toInt = number :=
            Int32.toInt_ofInt_of_le lower (Int.lt_of_le_sub_one upper)
          refine ⟨trivial, ?_⟩
          show integerText (Int32.ofInt number).toInt = normalForm text
          rw [same, integerText_of_spelled spelled]
      | string =>
          obtain ⟨string, isString, rfl⟩ := of_map_ok isRead
          rw [stringFromString] at isString
          split at isString
          · cases isString
          · next short =>
              cases isString
              exact ⟨not_lt.mp short, rfl⟩
      | u32 =>
          obtain ⟨number, isNumber, rfl⟩ := of_map_ok isRead
          obtain ⟨spelled, lower, upper⟩ := (numberFromString_ok_iff .u32).mp isNumber
          obtain ⟨natural, rfl⟩ := Int.eq_ofNat_of_zero_le lower
          have same : (UInt32.ofNat natural).toNat = natural := by
            rw [UInt32.toNat_ofNat']
            omega
          refine ⟨trivial, ?_⟩
          show integerText (UInt32.ofNat natural).toNat = normalForm text
          rw [same, ← integerText_of_spelled spelled]
      | i64 =>
          obtain ⟨number, isNumber, rfl⟩ := of_map_ok isRead
          obtain ⟨spelled, lower, upper⟩ := (numberFromString_ok_iff .i64).mp isNumber
          have same : (Int64.ofInt number).toInt = number :=
            Int64.toInt_ofInt_of_le lower (Int.lt_of_le_sub_one upper)
          refine ⟨trivial, ?_⟩
          show integerText (Int64.ofInt number).toInt = normalForm text
          rw [same, integerText_of_spelled spelled]
      | f64 =>
          obtain ⟨number, _, rfl⟩ := of_map_ok isRead
          exact absurd rfl notDouble

/-- **Values and their texts.** A value that is no `double` is read back from its text. A text that
is read as such a value is written again in its normal form, so that two texts are read as the same
number exactly if they have the same normal form. -/
theorem text_roundTrip (doubles : Doubles) :
    (∀ value : Value, value.Storable → value.type ≠ .f64 →
      valueFromString doubles (typeOf value) (toText doubles value) = .ok value) ∧
    (∀ id text value, valueFromString doubles id text = .ok value → value.type ≠ .f64 →
      toText doubles value = if value.type = .string then text else normalForm text) ∧
    ∀ id text text' value value', valueFromString doubles id text = .ok value →
      valueFromString doubles id text' = .ok value' → value.type ≠ .f64 → value.type ≠ .string →
        (value = value' ↔ normalForm text = normalForm text') := by
  refine ⟨fun value => valueFromString_toText doubles,
    fun id text value isRead notDouble => (toText_of_valueFromString isRead notDouble).2, ?_⟩
  intro id text text' value value' isRead isRead' notDouble notString
  have isId := typeOf_valueFromString isRead
  have isId' := typeOf_valueFromString isRead'
  have sameType : value'.type = value.type := DataType.typeId_injective (isId'.trans isId.symm)
  obtain ⟨storable, isText⟩ := toText_of_valueFromString isRead notDouble
  obtain ⟨storable', isText'⟩ := toText_of_valueFromString isRead' (sameType ▸ notDouble)
  rw [if_neg notString] at isText
  rw [sameType, if_neg notString] at isText'
  rw [← isText, ← isText']
  constructor
  · rintro rfl
    rfl
  · intro same
    have back := valueFromString_toText doubles storable notDouble
    have back' := valueFromString_toText doubles storable' (sameType ▸ notDouble)
    rw [isId, same] at back
    rw [isId', back] at back'
    exact Except.ok.inj back'

end Yadb
