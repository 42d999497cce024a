/-
**Byte regions and little-endian words.**

A region is a fixed number of bytes. Ranges are read and written as lists; what lies outside the
region reads as zero and is not written, so that every operation is total.

* `readBytes_writeBytes`, `readBytes_writeBytes_disjoint`: a range that was written reads back, and
  a range apart from it is as before.
* `readBytes_moveBytes`: a moved range reads back at its destination, overlapping or not.
* `leBytes` / `leValue`: a number as `width` bytes, least significant first, and back
  (`leValue_leBytes`, `leBytes_leValue`).
-/

import Mathlib.Data.List.GetD
import Mathlib.Tactic.Ring

namespace Foundation

abbrev Region (size : Nat) := Fin size → UInt8

variable {size : Nat}

/-- The byte at a position. -/
def byteAt (region : Region size) (position : Nat) : UInt8 :=
  if inside : position < size then region ⟨position, inside⟩ else 0

/-- The bytes of a range. -/
def readBytes (region : Region size) (start length : Nat) : List UInt8 :=
  (List.range length).map fun index => byteAt region (start + index)

/-- The region with these bytes from `start` on. -/
def writeBytes (region : Region size) (start : Nat) (bytes : List UInt8) : Region size :=
  fun position =>
    if start ≤ position.val ∧ position.val < start + bytes.length then
      bytes.getD (position.val - start) 0
    else region position

/-- Copy a range; the two ranges may overlap. -/
def moveBytes (region : Region size) (target source length : Nat) : Region size :=
  writeBytes region target (readBytes region source length)

/-- The two regions have the same bytes from `lower` up to `upper`. -/
def Agree (region region' : Region size) (lower upper : Nat) : Prop :=
  ∀ position, lower ≤ position → position < upper → byteAt region' position = byteAt region position

/-! ### Ranges -/

@[simp] theorem length_readBytes (region : Region size) (start length : Nat) :
    (readBytes region start length).length = length := by
  rw [readBytes, List.length_map, List.length_range]

theorem getElem_readBytes (region : Region size) (start length index : Nat)
    (inside : index < (readBytes region start length).length) :
    (readBytes region start length)[index] = byteAt region (start + index) := by
  simp only [readBytes, List.getElem_map, List.getElem_range]

/-- Ranges are equal when their bytes are. -/
theorem readBytes_congr {region region' : Region size} {start start' length : Nat}
    (same : ∀ index, index < length →
      byteAt region (start + index) = byteAt region' (start' + index)) :
    readBytes region start length = readBytes region' start' length := by
  apply List.ext_getElem
  · rw [length_readBytes, length_readBytes]
  · intro index inside _
    rw [getElem_readBytes, getElem_readBytes]
    exact same index (by rwa [length_readBytes] at inside)

theorem byteAt_writeBytes_inside (region : Region size) {start position : Nat} {bytes : List UInt8}
    (fits : start + bytes.length ≤ size) (above : start ≤ position)
    (below : position < start + bytes.length) :
    byteAt (writeBytes region start bytes) position = bytes.getD (position - start) 0 := by
  have inside : position < size := by omega
  rw [byteAt, dif_pos inside, writeBytes, if_pos ⟨above, below⟩]

theorem writeBytes_nil (region : Region size) (start : Nat) : writeBytes region start [] = region := by
  funext position
  refine if_neg ?_
  rw [List.length_nil]
  omega

theorem byteAt_writeBytes_outside (region : Region size) {start position : Nat}
    {bytes : List UInt8} (outside : position < start ∨ start + bytes.length ≤ position) :
    byteAt (writeBytes region start bytes) position = byteAt region position := by
  have apart : ¬ (start ≤ position ∧ position < start + bytes.length) := by omega
  unfold byteAt
  split
  · exact if_neg apart
  · rfl

theorem readBytes_append (region : Region size) (start first second : Nat) :
    readBytes region start (first + second)
      = readBytes region start first ++ readBytes region (start + first) second := by
  rw [readBytes, List.range_add, List.map_append, List.map_map]
  refine congrArg (readBytes region start first ++ ·) (List.map_congr_left fun index _ => ?_)
  exact congrArg (byteAt region) (Nat.add_assoc start first index).symm

/-- **What was written reads back.** -/
theorem readBytes_writeBytes (region : Region size) {start : Nat} {bytes : List UInt8}
    (fits : start + bytes.length ≤ size) :
    readBytes (writeBytes region start bytes) start bytes.length = bytes := by
  apply List.ext_getElem
  · rw [length_readBytes]
  · intro index _ inside
    rw [getElem_readBytes, byteAt_writeBytes_inside region fits (by omega) (by omega),
      Nat.add_sub_cancel_left, List.getD_eq_getElem _ _ inside]

/-- **A range apart from what was written is as before.** -/
theorem readBytes_writeBytes_disjoint (region : Region size) {start other length : Nat}
    {bytes : List UInt8} (apart : start + bytes.length ≤ other ∨ other + length ≤ start) :
    readBytes (writeBytes region start bytes) other length = readBytes region other length := by
  apply readBytes_congr
  intro index inside
  exact byteAt_writeBytes_outside region (by omega)

theorem readBytes_agree {region region' : Region size} {lower upper start length : Nat}
    (agree : Agree region region' lower upper) (above : lower ≤ start)
    (below : start + length ≤ upper) :
    readBytes region' start length = readBytes region start length :=
  readBytes_congr fun index inside => agree (start + index) (by omega) (by omega)

/-- **A moved range reads back at its destination.** -/
theorem readBytes_moveBytes (region : Region size) {target source length : Nat}
    (fits : target + length ≤ size) :
    readBytes (moveBytes region target source length) target length
      = readBytes region source length := by
  have moved : readBytes (moveBytes region target source length) target
      (readBytes region source length).length = readBytes region source length :=
    readBytes_writeBytes region (by rwa [length_readBytes])
  rwa [length_readBytes] at moved

theorem byteAt_moveBytes_outside (region : Region size) {target source length position : Nat}
    (outside : position < target ∨ target + length ≤ position) :
    byteAt (moveBytes region target source length) position = byteAt region position :=
  byteAt_writeBytes_outside region (by rwa [length_readBytes])

/-! ### A list overwritten -/

/-- The list with some of its bytes replaced. -/
def overwrite (bytes : List UInt8) (position : Nat) (written : List UInt8) : List UInt8 :=
  bytes.take position ++ written ++ bytes.drop (position + written.length)

theorem length_overwrite {bytes written : List UInt8} {position : Nat}
    (fits : position + written.length ≤ bytes.length) :
    (overwrite bytes position written).length = bytes.length := by
  simp only [overwrite, List.length_append, List.length_take, List.length_drop]
  omega

theorem overwrite_nil (bytes : List UInt8) (position : Nat) : overwrite bytes position [] = bytes := by
  rw [overwrite, List.append_nil, List.length_nil, Nat.add_zero, List.take_append_drop]

/-- All of the list is replaced. -/
theorem overwrite_all {bytes written : List UInt8} (length : written.length = bytes.length) :
    overwrite bytes 0 written = written := by
  rw [overwrite, Nat.zero_add, length, List.drop_length, List.take_zero, List.append_nil,
    List.nil_append]

theorem take_readBytes (region : Region size) {start length position : Nat}
    (fits : position ≤ length) :
    (readBytes region start length).take position = readBytes region start position := by
  obtain ⟨rest, rfl⟩ := Nat.exists_eq_add_of_le fits
  rw [readBytes_append, List.take_left' (length_readBytes region start position)]

theorem drop_readBytes (region : Region size) {start length position : Nat}
    (fits : position ≤ length) :
    (readBytes region start length).drop position
      = readBytes region (start + position) (length - position) := by
  obtain ⟨rest, rfl⟩ := Nat.exists_eq_add_of_le fits
  rw [readBytes_append, List.drop_left' (length_readBytes region start position),
    Nat.add_sub_cancel_left]

/-- A write inside a range overwrites part of what the range reads. -/
theorem readBytes_writeBytes_within (region : Region size) {start length position : Nat}
    {bytes : List UInt8} (fits : position + bytes.length ≤ length) (inside : start + length ≤ size) :
    readBytes (writeBytes region (start + position) bytes) start length
      = overwrite (readBytes region start length) position bytes := by
  have first : readBytes (writeBytes region (start + position) bytes) start position
      = readBytes region start position :=
    readBytes_writeBytes_disjoint region (Or.inr (Nat.le_refl _))
  have second : readBytes (writeBytes region (start + position) bytes) (start + position)
      bytes.length = bytes := readBytes_writeBytes region (by omega)
  have third : readBytes (writeBytes region (start + position) bytes)
      (start + (position + bytes.length)) (length - (position + bytes.length))
      = readBytes region (start + (position + bytes.length)) (length - (position + bytes.length)) :=
    readBytes_writeBytes_disjoint region (Or.inl (by omega))
  rw [overwrite, take_readBytes region (by omega), drop_readBytes region fits, ← first, ← third]
  conv_lhs => rw [← Nat.add_sub_cancel' fits, readBytes_append, readBytes_append, second]

/-! ### Little-endian words -/

/-- The lowest `width` bytes of a number, least significant first. -/
def leBytes : Nat → Nat → List UInt8
  | 0, _ => []
  | width + 1, value => UInt8.ofNat value :: leBytes width (value / 256)

/-- The number that bytes spell, least significant first. -/
def leValue : List UInt8 → Nat
  | [] => 0
  | byte :: bytes => byte.toNat + 256 * leValue bytes

@[simp] theorem length_leBytes (width value : Nat) : (leBytes width value).length = width := by
  induction width generalizing value with
  | zero => rfl
  | succ width ih => rw [leBytes, List.length_cons, ih]

theorem leValue_lt (bytes : List UInt8) : leValue bytes < 256 ^ bytes.length := by
  induction bytes with
  | nil => exact Nat.one_pos
  | cons byte bytes ih =>
      have bound : byte.toNat < 256 := byte.toNat_lt
      rw [leValue, List.length_cons, Nat.pow_succ]
      omega

/-- **A number that fits comes back from its bytes.** -/
theorem leValue_leBytes {width value : Nat} (fits : value < 256 ^ width) :
    leValue (leBytes width value) = value := by
  induction width generalizing value with
  | zero =>
      rw [Nat.pow_zero] at fits
      exact (Nat.lt_one_iff.mp fits).symm
  | succ width ih =>
      rw [Nat.pow_succ] at fits
      rw [leBytes, leValue, ih (by omega), UInt8.toNat_ofNat']
      omega

/-- A word that was written reads back. -/
theorem leValue_writeBytes (region : Region size) {start width value : Nat}
    (inside : start + width ≤ size) (fits : value < 256 ^ width) :
    leValue (readBytes (writeBytes region start (leBytes width value)) start width) = value := by
  have written : readBytes (writeBytes region start (leBytes width value)) start
      (leBytes width value).length = leBytes width value :=
    readBytes_writeBytes region (by rwa [length_leBytes])
  rw [length_leBytes] at written
  rw [written, leValue_leBytes fits]

/-- **Bytes come back from the number they spell.** -/
theorem leBytes_leValue (bytes : List UInt8) : leBytes bytes.length (leValue bytes) = bytes := by
  induction bytes with
  | nil => rfl
  | cons byte bytes ih =>
      have bound : byte.toNat < 256 := byte.toNat_lt
      have low : UInt8.ofNat (byte.toNat + 256 * leValue bytes) = byte := by
        apply UInt8.toNat.inj
        rw [UInt8.toNat_ofNat']
        omega
      have high : (byte.toNat + 256 * leValue bytes) / 256 = leValue bytes := by omega
      rw [List.length_cons, leBytes, leValue, low, high, ih]

end Foundation
