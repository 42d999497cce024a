/-
**The checksum of a page.**

`checksum.cpp`, and the checksum functions of `page_format.cpp`: the exclusive or of the 64-bit
words of the page, which the checksum field makes zero.

* `checksum64_setChecksum`: the checksum of a page whose checksum field is set.
* `validChecksum_iff`: which pages are as valid as a page.
* `checksum_law`: `UpdateChecksum` changes the checksum field only, makes the page valid and need
  not be repeated; and which corruptions of a valid page are detected.
-/

import Yadb.Foundation.XorSum
import Yadb.Storage.Page.Format

namespace Yadb

open Foundation

def getU64 (page : FullPage) (position : Nat) : UInt64 :=
  UInt64.ofNat (leValue (readBytes page position 8))

def setU64 (page : FullPage) (position : Nat) (value : UInt64) : FullPage :=
  writeBytes page position (leBytes 8 value.toNat)

namespace Page

/-- `Header::Offsets::CHECKSUM`. -/
def checksumField : Nat := 0

/-- The number of words in a page. -/
def wordCount : Nat := pageSize / 8

/-- An aligned word. -/
def word (page : FullPage) (index : Nat) : UInt64 := getU64 page (8 * index)

def checksum64 (page : FullPage) : UInt64 := xorSum (word page) wordCount

def setChecksum (page : FullPage) (checksum : UInt64) : FullPage :=
  setU64 page checksumField checksum

def validChecksum (page : FullPage) : Bool := checksum64 page == 0

def updateChecksum (page : FullPage) : FullPage :=
  let page := setChecksum page 0
  setChecksum page (checksum64 page)

/-! ### Words -/

variable {page page' : FullPage}

theorem getU64_setU64 (page : FullPage) {position : Nat} (fits : position + 8 ≤ pageSize)
    (value : UInt64) : getU64 (setU64 page position value) position = value := by
  have bound : value.toNat < 256 ^ 8 := value.toNat_lt
  rw [getU64, setU64, leValue_writeBytes page fits bound, UInt64.ofNat_toNat]

theorem getU64_setU64_apart (page : FullPage) {position other : Nat}
    (apart : position + 8 ≤ other ∨ other + 8 ≤ position) (value : UInt64) :
    getU64 (setU64 page position value) other = getU64 page other := by
  rw [getU64, setU64, readBytes_writeBytes_disjoint page (by rwa [length_leBytes]), getU64]

/-- The same word has the same bytes. -/
theorem readBytes_of_getU64 {position : Nat} (same : getU64 page position = getU64 page' position) :
    readBytes page position 8 = readBytes page' position 8 := by
  have below : ∀ page : FullPage, leValue (readBytes page position 8) < UInt64.size := by
    intro page
    calc leValue (readBytes page position 8) < 256 ^ (readBytes page position 8).length :=
          leValue_lt _
      _ = 256 ^ 8 := by rw [length_readBytes]
      _ = UInt64.size := by decide
  have number := congrArg UInt64.toNat same
  rw [getU64, getU64, UInt64.toNat_ofNat_of_lt' (below page),
    UInt64.toNat_ofNat_of_lt' (below page')] at number
  have spelled := leBytes_leValue (readBytes page position 8)
  have spelled' := leBytes_leValue (readBytes page' position 8)
  rw [length_readBytes] at spelled spelled'
  rw [← spelled, ← spelled', number]

/-- A byte of a word. -/
theorem byteAt_of_word {index position : Nat} (same : word page index = word page' index)
    (above : 8 * index ≤ position) (below : position < 8 * index + 8) :
    byteAt page position = byteAt page' position := by
  have bytes := readBytes_of_getU64 same
  have inside : position - 8 * index < (readBytes page (8 * index) 8).length := by
    rw [length_readBytes]
    omega
  have inside' : position - 8 * index < (readBytes page' (8 * index) 8).length := by
    rw [length_readBytes]
    omega
  have read := getElem_readBytes page (8 * index) 8 (position - 8 * index) inside
  have read' := getElem_readBytes page' (8 * index) 8 (position - 8 * index) inside'
  rw [Nat.add_sub_cancel' above] at read read'
  rw [← read, ← read']
  exact List.getElem_of_eq bytes inside

/-- The words of a page are the page. -/
theorem ext_words (same : ∀ index, index < wordCount → word page index = word page' index) :
    page = page' := by
  funext position
  have inside : position.val < pageSize := position.isLt
  have below : position.val / 8 < wordCount := by
    unfold wordCount pageSize at *
    omega
  have bytes := byteAt_of_word (same _ below) (Nat.mul_div_le position.val 8) (by omega)
  rwa [byteAt, dif_pos inside, byteAt, dif_pos inside] at bytes

theorem word_congr {index : Nat} (same : ∀ position, 8 * index ≤ position →
    position < 8 * index + 8 → byteAt page position = byteAt page' position) :
    word page index = word page' index := by
  unfold word getU64
  rw [readBytes_congr fun offset inside => same (8 * index + offset) (by omega) (by omega)]

/-! ### The checksum field -/

theorem word_setChecksum_field (page : FullPage) (checksum : UInt64) :
    word (setChecksum page checksum) 0 = checksum := getU64_setU64 page (by decide) checksum

theorem word_setChecksum (page : FullPage) (checksum : UInt64) {index : Nat} (other : index ≠ 0) :
    word (setChecksum page checksum) index = word page index :=
  getU64_setU64_apart page (Or.inl (by unfold checksumField; omega)) checksum

/-- **The checksum with another value in its field.** -/
theorem checksum64_setChecksum (page : FullPage) (checksum : UInt64) :
    checksum64 (setChecksum page checksum) = checksum64 page ^^^ (word page 0 ^^^ checksum) := by
  have changed : xorSum (fun index => word page index ^^^ word (setChecksum page checksum) index)
      wordCount = word page 0 ^^^ checksum := by
    rw [xorSum_single (show 0 < wordCount by decide) fun index _ other => ?_,
      word_setChecksum_field]
    rw [word_setChecksum page checksum other, UInt64.xor_self]
  rw [xorSum_xor] at changed
  rw [← changed, ← UInt64.xor_assoc, checksum64, checksum64, UInt64.xor_self, UInt64.zero_xor]

theorem setChecksum_setChecksum (page : FullPage) (first second : UInt64) :
    setChecksum (setChecksum page first) second = setChecksum page second := by
  refine ext_words fun index _ => ?_
  by_cases field : index = 0
  · subst field
    rw [word_setChecksum_field, word_setChecksum_field]
  · rw [word_setChecksum _ _ field, word_setChecksum _ _ field, word_setChecksum _ _ field]

theorem validChecksum_updateChecksum (page : FullPage) :
    validChecksum (updateChecksum page) = true := by
  rw [validChecksum, beq_iff_eq, updateChecksum, checksum64_setChecksum, word_setChecksum_field,
    UInt64.zero_xor, UInt64.xor_self]

theorem updateChecksum_updateChecksum (page : FullPage) :
    updateChecksum (updateChecksum page) = updateChecksum page := by
  have cleared : setChecksum (updateChecksum page) 0 = setChecksum page 0 := by
    rw [updateChecksum, setChecksum_setChecksum, setChecksum_setChecksum]
  rw [updateChecksum, cleared]
  rfl

theorem updateChecksum_frame (page : FullPage) {position : Nat} (outside : 8 ≤ position) :
    byteAt (updateChecksum page) position = byteAt page position := by
  have apart : ∀ value : UInt64,
      position < checksumField ∨ checksumField + (leBytes 8 value.toNat).length ≤ position := by
    intro value
    rw [length_leBytes, checksumField]
    exact Or.inr (by omega)
  rw [updateChecksum, setChecksum, setU64, byteAt_writeBytes_outside _ (apart _), setChecksum, setU64,
    byteAt_writeBytes_outside _ (apart _)]

/-! ### Corruption -/

/-- The exclusive or of all words in which the pages may differ. -/
def difference (page page' : FullPage) : UInt64 :=
  xorSum (fun index => word page index ^^^ word page' index) wordCount

theorem difference_eq (page page' : FullPage) :
    difference page page' = checksum64 page ^^^ checksum64 page' := xorSum_xor _ _ _

/-- **Which pages are valid beside a valid page.** -/
theorem validChecksum_iff (valid : validChecksum page = true) (page' : FullPage) :
    validChecksum page' = true ↔ difference page page' = 0 := by
  have zero : checksum64 page = 0 := beq_iff_eq.mp valid
  rw [difference_eq, zero, UInt64.zero_xor, validChecksum, beq_iff_eq]

/-- The pages have the same bytes outside one aligned word. -/
def SameOutside (page page' : FullPage) (index : Nat) : Prop :=
  ∀ position, position < 8 * index ∨ 8 * index + 8 ≤ position →
    byteAt page position = byteAt page' position

/-- Pages that differ in one aligned word differ by that word. -/
theorem difference_of_sameOutside {index : Nat} (inside : index < wordCount)
    (same : SameOutside page page' index) :
    difference page page' = word page index ^^^ word page' index := by
  refine xorSum_single inside fun other _ different => ?_
  rw [UInt64.xor_eq_zero_iff]
  exact word_congr fun position above below => same position (by omega)

/-- **A corruption of one aligned word is detected.** -/
theorem corruption_detected (valid : validChecksum page = true) {index : Nat}
    (inside : index < wordCount) (same : SameOutside page page' index) (corrupted : page' ≠ page) :
    validChecksum page' = false := by
  by_contra missed
  rw [Bool.not_eq_false, validChecksum_iff valid, difference_of_sameOutside inside same,
    UInt64.xor_eq_zero_iff] at missed
  refine corrupted (ext_words fun other _ => ?_)
  by_cases here : other = index
  · rw [here, missed]
  · exact (word_congr fun position above below => same position (by omega)).symm

/-- **The checksum law.** -/
theorem checksum_law (page : FullPage) :
    (∀ position, 8 ≤ position → byteAt (updateChecksum page) position = byteAt page position) ∧
    validChecksum (updateChecksum page) = true ∧
    updateChecksum (updateChecksum page) = updateChecksum page ∧
    (validChecksum page = true → ∀ page',
      (validChecksum page' = true ↔
        xorSum (fun index => word page index ^^^ word page' index) wordCount = 0) ∧
      ∀ index, index < wordCount → SameOutside page page' index → page' ≠ page →
        validChecksum page' = false) :=
  ⟨fun _ outside => updateChecksum_frame page outside, validChecksum_updateChecksum page,
    updateChecksum_updateChecksum page, fun valid page' =>
      ⟨validChecksum_iff valid page', fun _ inside same corrupted =>
        corruption_detected valid inside same corrupted⟩⟩

/-- A byte of a blank page, changed after the checksum was set. -/
theorem changedByte_detected : ∃ page page' : FullPage, validChecksum page = true ∧ page' ≠ page ∧
    validChecksum page' = false := by
  let page := updateChecksum fun _ => 0
  let page' : FullPage := fun position =>
    if position.val = 100 then page position + 1 else page position
  have valid : validChecksum page = true := (checksum_law fun _ => 0).2.1
  have corrupted : page' ≠ page := by
    intro same
    have byte : page ⟨100, by decide⟩ + 1 = page ⟨100, by decide⟩ := congrFun same ⟨100, by decide⟩
    exact absurd (UInt8.add_eq_left.mp byte) (by decide)
  refine ⟨page, page', valid, corrupted, ?_⟩
  refine ((checksum_law page).2.2.2 valid page').2 12 (by decide) (fun position outside => ?_)
    corrupted
  have elsewhere : position ≠ 100 := by omega
  by_cases inside : position < pageSize
  · rw [byteAt, dif_pos inside, byteAt, dif_pos inside]
    exact (if_neg elsewhere).symm
  · rw [byteAt, dif_neg inside, byteAt, dif_neg inside]

end Page

end Yadb
