/-
**Exclusive or over a sequence of words.**

* `xorSum_xor`: the sum of two sequences, word by word, is the sum of their sums.
* `xorSum_single`: words that are all zero but one sum up to that one.
-/

import Mathlib.Logic.Basic

namespace Foundation

/-- The exclusive or of the first words of a sequence. -/
def xorSum (words : Nat → UInt64) (count : Nat) : UInt64 :=
  (List.range count).foldl (fun res index => res ^^^ words index) 0

variable {words words' : Nat → UInt64} {count : Nat}

theorem xorSum_succ (words : Nat → UInt64) (count : Nat) :
    xorSum words (count + 1) = xorSum words count ^^^ words count := by
  rw [xorSum, List.range_succ, List.foldl_append]
  rfl

/-- **The sum is linear.** -/
theorem xorSum_xor (words words' : Nat → UInt64) (count : Nat) :
    xorSum (fun index => words index ^^^ words' index) count
      = xorSum words count ^^^ xorSum words' count := by
  induction count with
  | zero => exact UInt64.xor_zero.symm
  | succ count ih =>
      rw [xorSum_succ, xorSum_succ, xorSum_succ, ih]
      ac_rfl

theorem xorSum_eq_zero (zero : ∀ index, index < count → words index = 0) :
    xorSum words count = 0 := by
  induction count with
  | zero => rfl
  | succ count ih =>
      rw [xorSum_succ, ih fun index below => zero index (Nat.lt_succ_of_lt below),
        zero count (Nat.lt_succ_self count), UInt64.xor_zero]

/-- **Only one word of the sequence counts.** -/
theorem xorSum_single {single : Nat} (inside : single < count)
    (others : ∀ index, index < count → index ≠ single → words index = 0) :
    xorSum words count = words single := by
  induction count with
  | zero => exact absurd inside (Nat.not_lt_zero single)
  | succ count ih =>
      rw [xorSum_succ]
      by_cases last : single = count
      · subst last
        rw [xorSum_eq_zero fun index below =>
          others index (Nat.lt_succ_of_lt below) (Nat.ne_of_lt below), UInt64.zero_xor]
      · have before : single < count := by omega
        rw [ih before fun index below => others index (Nat.lt_succ_of_lt below),
          others count (Nat.lt_succ_self count) (Ne.symm last), UInt64.xor_zero]

end Foundation
