/-
**Sequences of self-delimiting codes.**

A code of a kind says how many bytes a value at the front of some bytes takes, so that values can be
written one after the other with nothing between them. `SelfDelimiting` collects what a code has to
satisfy; `Segmented kinds bytes` says that the segments of these kinds lie in the bytes and end
exactly at their end.

* `segmented_iff`: the bytes that are segmented are exactly the encodings of lists of values of
  these kinds.
* `drop_encodeAll`: the segment of a value starts where the encodings before it end.
-/

import Mathlib.Data.List.Forall2

namespace Foundation

variable {Kind Value : Type}

/-- A code whose segments can be told apart from what follows them. -/
structure SelfDelimiting (Kind Value : Type) where
  fits : Kind → Value → Prop
  encode : Value → List UInt8
  size : Kind → List UInt8 → Option Nat
  decode : Kind → List UInt8 → Option Value
  size_encode : ∀ {kind value} rest, fits kind value →
    size kind (encode value ++ rest) = some (encode value).length
  decode_encode : ∀ {kind value} rest, fits kind value →
    decode kind (encode value ++ rest) = some value
  decode_segment : ∀ {kind bytes length}, size kind bytes = some length →
    length ≤ bytes.length → ∃ value, fits kind value ∧ decode kind bytes = some value ∧
      encode value = bytes.take length

namespace SelfDelimiting

variable (code : SelfDelimiting Kind Value)

/-- The values one after the other. -/
def encodeAll (values : List Value) : List UInt8 := values.flatMap code.encode

/-- The segments of these kinds end exactly at the end of the bytes. -/
inductive Segmented : List Kind → List UInt8 → Prop
  | nil : Segmented [] []
  | cons {kind : Kind} {kinds : List Kind} {bytes : List UInt8} {length : Nat} :
      code.size kind bytes = some length → length ≤ bytes.length →
      Segmented kinds (bytes.drop length) → Segmented (kind :: kinds) bytes

variable {code} {kinds : List Kind} {values : List Value} {bytes : List UInt8}

@[simp] theorem encodeAll_cons (value : Value) (values : List Value) :
    code.encodeAll (value :: values) = code.encode value ++ code.encodeAll values :=
  List.flatMap_cons

theorem encodeAll_append (first second : List Value) :
    code.encodeAll (first ++ second) = code.encodeAll first ++ code.encodeAll second :=
  List.flatMap_append

/-- **Encoded values are segmented.** -/
theorem segmented_encodeAll (fits : List.Forall₂ code.fits kinds values) :
    code.Segmented kinds (code.encodeAll values) := by
  induction fits with
  | nil => exact .nil
  | @cons kind value kinds values first _ ih =>
      rw [encodeAll_cons]
      refine .cons (code.size_encode _ first) ?_ ?_
      · rw [List.length_append]
        exact Nat.le_add_right _ _
      · rw [List.drop_left]
        exact ih

/-- **Segmented bytes are encoded values.** -/
theorem exists_of_segmented (segmented : code.Segmented kinds bytes) :
    ∃ values, List.Forall₂ code.fits kinds values ∧ bytes = code.encodeAll values := by
  induction segmented with
  | nil => exact ⟨[], .nil, rfl⟩
  | @cons kind kinds bytes length isSize inside _ ih =>
      obtain ⟨value, fits, _, encoded⟩ := code.decode_segment isSize inside
      obtain ⟨values, allFit, rest⟩ := ih
      refine ⟨value :: values, .cons fits allFit, ?_⟩
      rw [encodeAll_cons, encoded, ← rest, List.take_append_drop]

theorem segmented_iff : code.Segmented kinds bytes ↔
    ∃ values, List.Forall₂ code.fits kinds values ∧ bytes = code.encodeAll values :=
  ⟨exists_of_segmented, by
    rintro ⟨values, fits, rfl⟩
    exact segmented_encodeAll fits⟩

/-- The values before an index, the value there, and the values after it. -/
theorem encodeAll_split (code : SelfDelimiting Kind Value) (values : List Value) {index : Nat}
    (inside : index < values.length) :
    code.encodeAll values = code.encodeAll (values.take index) ++
      (code.encode values[index] ++ code.encodeAll (values.drop (index + 1))) := by
  conv_lhs => rw [← List.take_append_drop index values, List.drop_eq_getElem_cons inside]
  rw [encodeAll_append, encodeAll_cons]

/-- **The segment of a value starts where the encodings before it end.** -/
theorem drop_encodeAll (code : SelfDelimiting Kind Value) (values : List Value) {index : Nat}
    (inside : index < values.length) :
    (code.encodeAll values).drop (code.encodeAll (values.take index)).length
      = code.encode values[index] ++ code.encodeAll (values.drop (index + 1)) := by
  rw [encodeAll_split code values inside, List.drop_left]

end SelfDelimiting

end Foundation
