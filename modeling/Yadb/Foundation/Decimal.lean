/-
**Decimal numerals.**

Numbers as the bytes of their decimal digits, and back.

* `decimal`, `numeral`: a number as its digits, and the number that digits stand for
  (`numeral_decimal`).
* `decimal_numeral`: digits, written again, have lost the zeros in front of them.
* `integerText`: a number with its sign.
-/

import Mathlib.Data.List.Basic
import Mathlib.Data.UInt

namespace Foundation

/-- `'0'` to `'9'`. -/
def IsDigit (character : UInt8) : Prop := 48 ≤ character.toNat ∧ character.toNat ≤ 57

instance : DecidablePred IsDigit := fun character =>
  inferInstanceAs (Decidable (48 ≤ character.toNat ∧ character.toNat ≤ 57))

def digitByte (digit : Nat) : UInt8 := UInt8.ofNat (48 + digit)

/-- The digits of a number, the most significant one first. -/
def decimal (number : Nat) : List UInt8 :=
  (Nat.toDigits 10 number).map fun digit => UInt8.ofNat digit.toNat

/-- The number that digits stand for. -/
def numeral (digits : List UInt8) : Nat :=
  digits.foldl (fun number digit => 10 * number + (digit.toNat - 48)) 0

theorem toNat_digitByte {digit : Nat} (small : digit < 10) : (digitByte digit).toNat = 48 + digit := by
  rw [digitByte, UInt8.toNat_ofNat']
  omega

theorem isDigit_digitByte {digit : Nat} (small : digit < 10) : IsDigit (digitByte digit) := by
  rw [IsDigit, toNat_digitByte small]
  omega

theorem digitByte_of_isDigit {character : UInt8} (isDigit : IsDigit character) :
    digitByte (character.toNat - 48) = character := by
  obtain ⟨low, high⟩ := isDigit
  apply UInt8.toNat_inj.mp
  rw [toNat_digitByte (by omega)]
  omega

theorem ofNat_digitChar : ∀ digit < 10,
    UInt8.ofNat (Nat.digitChar digit).toNat = digitByte digit := by
  decide

theorem decimal_of_lt {number : Nat} (small : number < 10) : decimal number = [digitByte number] := by
  rw [decimal, Nat.toDigits_of_lt_base small, List.map_singleton, ofNat_digitChar number small]

theorem decimal_of_ge {number : Nat} (large : 10 ≤ number) :
    decimal number = decimal (number / 10) ++ [digitByte (number % 10)] := by
  have last : number % 10 < 10 := Nat.mod_lt _ (by omega)
  rw [decimal, Nat.toDigits_of_base_le (by omega) large, List.map_append, List.map_singleton,
    ofNat_digitChar _ last, decimal]

theorem numeral_append (digits : List UInt8) (digit : UInt8) :
    numeral (digits ++ [digit]) = 10 * numeral digits + (digit.toNat - 48) := by
  rw [numeral, List.foldl_append, numeral]
  rfl

/-- **The digits of a number stand for it.** -/
theorem numeral_decimal (number : Nat) : numeral (decimal number) = number := by
  induction number using Nat.strongRecOn with
  | _ number ih =>
      by_cases small : number < 10
      · rw [decimal_of_lt small]
        show 10 * 0 + ((digitByte number).toNat - 48) = number
        rw [toNat_digitByte small]
        omega
      · have last : number % 10 < 10 := Nat.mod_lt _ (by omega)
        rw [decimal_of_ge (by omega), numeral_append, ih (number / 10) (by omega),
          toNat_digitByte last]
        omega

theorem decimal_ne_nil (number : Nat) : decimal number ≠ [] := by
  rw [decimal]
  exact fun nothing => Nat.toDigits_ne_nil (List.map_eq_nil_iff.mp nothing)

theorem decimal_isDigit (number : Nat) : ∀ digit ∈ decimal number, IsDigit digit := by
  induction number using Nat.strongRecOn with
  | _ number ih =>
      by_cases small : number < 10
      · rw [decimal_of_lt small]
        exact List.forall_mem_singleton.mpr (isDigit_digitByte small)
      · rw [decimal_of_ge (by omega)]
        exact List.forall_mem_append.mpr ⟨ih (number / 10) (by omega),
          List.forall_mem_singleton.mpr (isDigit_digitByte (Nat.mod_lt _ (by omega)))⟩

/-! ### Zeros in front -/

/-- Digits without the zeros in front of them. -/
def withoutZeros (digits : List UInt8) : List UInt8 :=
  let rest := digits.dropWhile fun digit => digit = 48
  if rest = [] then [48] else rest

theorem numeral_pos {digits : List UInt8} (all : ∀ digit ∈ digits, IsDigit digit)
    {first : UInt8} {rest : List UInt8} (isCons : digits = first :: rest) (notZero : first ≠ 48) :
    0 < numeral digits := by
  induction digits using List.reverseRecOn generalizing rest with
  | nil => cases isCons
  | append_singleton digits digit ih =>
      rw [numeral_append]
      cases digits with
      | nil =>
          cases isCons
          have isDigit : 48 ≤ first.toNat := (all first List.mem_cons_self).1
          have other : first.toNat ≠ 48 := fun same => notZero (UInt8.toNat_inj.mp same)
          omega
      | cons head digits =>
          obtain ⟨rfl, _⟩ := List.cons.inj isCons
          have front := ih (fun digit member => all digit (List.mem_append_left _ member)) rfl
          omega

/-- Digits without a zero in front are those of their number. -/
theorem decimal_numeral_of_head {digits : List UInt8} (all : ∀ digit ∈ digits, IsDigit digit)
    {first : UInt8} {rest : List UInt8} (isCons : digits = first :: rest) (notZero : first ≠ 48) :
    decimal (numeral digits) = digits := by
  induction digits using List.reverseRecOn generalizing rest with
  | nil => cases isCons
  | append_singleton digits digit ih =>
      obtain ⟨front, last⟩ := List.forall_mem_append.mp all
      have isDigit : IsDigit digit := List.forall_mem_singleton.mp last
      obtain ⟨low, high⟩ := isDigit
      rw [numeral_append]
      cases digits with
      | nil =>
          show decimal (10 * 0 + (digit.toNat - 48)) = [digit]
          rw [Nat.mul_zero, Nat.zero_add, decimal_of_lt (by omega), digitByte_of_isDigit ⟨low, high⟩]
      | cons head digits =>
          obtain ⟨rfl, _⟩ := List.cons.inj isCons
          have positive := numeral_pos front rfl notZero
          have same := ih front rfl
          have quotient : (10 * numeral (head :: digits) + (digit.toNat - 48)) / 10
              = numeral (head :: digits) := by omega
          have remainder : (10 * numeral (head :: digits) + (digit.toNat - 48)) % 10
              = digit.toNat - 48 := by omega
          rw [decimal_of_ge (by omega), quotient, remainder, same, digitByte_of_isDigit ⟨low, high⟩]

theorem numeral_zero_cons (digits : List UInt8) : numeral (48 :: digits) = numeral digits := rfl

/-- **Digits, written again,** have lost the zeros in front of them. -/
theorem decimal_numeral {digits : List UInt8} (all : ∀ digit ∈ digits, IsDigit digit) :
    decimal (numeral digits) = withoutZeros digits := by
  induction digits with
  | nil => rfl
  | cons first rest ih =>
      by_cases isZero : first = 48
      · have same : withoutZeros (first :: rest) = withoutZeros rest := by
          rw [withoutZeros, List.dropWhile_cons_of_pos (by simpa using isZero), withoutZeros]
        rw [same, isZero, numeral_zero_cons]
        exact ih (List.forall_mem_cons.mp all).2
      · have same : withoutZeros (first :: rest) = first :: rest := by
          rw [withoutZeros, List.dropWhile_cons_of_neg (by simpa using isZero)]
          rfl
        rw [same]
        exact decimal_numeral_of_head all rfl isZero

/-! ### Signs -/

/-- A number with a minus in front of it, where it is negative. -/
def integerText (number : Int) : List UInt8 :=
  match number with
  | .ofNat number => decimal number
  | .negSucc number => 45 :: decimal (number + 1)

end Foundation
