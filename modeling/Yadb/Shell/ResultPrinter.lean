/-
**Printing results.**

`result_printer.cpp`: the values of a result are written as text, every column as wide as its widest
text, with lines of box characters around. The output is bytes, and a box character is three of them.

* `Reply.text`: what is printed for an answer of the database. It is what is printed for the result
  that has its rows as bytes (`print_result`).
* `print_aligned`: the lines of a table take the same number of columns on the screen, where the
  texts are printing characters of ASCII.
* `readTable_print`: a table is read back from what is printed, but for blanks at the end of a text.
-/

import Mathlib.Data.List.DropRight
import Yadb.Core.ValueText
import Yadb.Executor.Execute

namespace Yadb

open Foundation

namespace ResultPrinter

/-! ### What is printed -/

/-- A box character in UTF-8, by its last byte. -/
def box (last : UInt8) : Bytes := [226, 148, last]

def horizontal : Bytes := box 128

def vertical : Bytes := box 130

/-- One of the lines around the rows. -/
def separator (left middle right : Bytes) (widths : List Nat) : Bytes :=
  left ++ middle.intercalate (widths.map fun width => (List.replicate (width + 2) horizontal).flatten)
    ++ right

/-- `print_header_separator`. -/
def headerSeparator : List Nat → Bytes := separator (box 140) (box 172) (box 144)

/-- `print_row_separator`. -/
def rowSeparator : List Nat → Bytes := separator (box 156) (box 188) (box 164)

/-- `print_footer_separator`. -/
def footerSeparator : List Nat → Bytes := separator (box 148) (box 180) (box 152)

/-- `std::setw(static_cast<int>(width))`; a field is not made smaller than its text. -/
def fieldWidth (width : Nat) : Nat := (Int32.ofNat width).toInt.toNat

/-- A text in its field, with blanks behind it, up to the line on its right. -/
def printCell (text : Bytes) (width : Nat) : Bytes :=
  32 :: (text ++ List.replicate (fieldWidth width - text.length) 32) ++ 32 :: vertical

/-- `print_row`. -/
def printRow (row : List Bytes) (widths : List Nat) : Bytes :=
  vertical ++ (List.zipWith printCell row widths).flatten

/-- `calculate_column_widths`. -/
def calculateColumnWidths (stringRows : List (List Bytes)) (schema : Schema) : List Nat :=
  stringRows.foldl (fun widths row => List.zipWith max widths (row.map List.length))
    (schema.map fun attr => attr.name.length)

/-- `value_to_string`. -/
def valueToString (doubles : Doubles) (row : Bytes) (schema : Schema) (column : Nat) :
    Except ReadFailure Bytes :=
  (RowReader.getValue ⟨row, schema⟩ column).map (toText doubles)

/-- `deserialize_rows`. -/
def deserializeRows (doubles : Doubles) (rows : List Bytes) (schema : Schema) :
    Except ReadFailure (List (List Bytes)) :=
  rows.mapM fun row => (List.range schema.length).mapM (valueToString doubles row schema)

/-- The lines of a table. -/
def tableLines (stringRows : List (List Bytes)) (schema : Schema) : List Bytes :=
  let widths := calculateColumnWidths stringRows schema
  headerSeparator widths :: printRow (schema.map RelationAttribute.name) widths ::
    rowSeparator widths :: stringRows.map (fun row => printRow row widths) ++
      [footerSeparator widths]

/-- The last line. -/
def summary (count : Nat) : Bytes :=
  decimal count ++ ascii " row" ++ (if count = 1 then [] else ascii "s") ++ ascii " in set"

/-- Every line ends with a newline. -/
def printTable (stringRows : List (List Bytes)) (schema : Schema) : Bytes :=
  terminated 10 (tableLines stringRows schema ++ [summary stringRows.length])

def failedText : Bytes := ascii "Error: Query failed" ++ [10]

def doneText : Bytes := ascii "Query OK" ++ [10]

def emptyText : Bytes := ascii "Empty set (0 rows)" ++ [10]

/-- `print`. -/
def print (doubles : Doubles) (result : ExecutionResult) : Except ReadFailure Bytes :=
  if result.success = false then return failedText
  else match result.rows, result.schema with
    | some rows, some schema =>
        if rows = [] then return emptyText
        else do
          let stringRows ← deserializeRows doubles rows schema
          return printTable stringRows schema
    | _, _ => return doneText

end ResultPrinter

/-- What is printed for an answer. -/
def Reply.text (doubles : Doubles) : Reply → Bytes
  | .failed => ResultPrinter.failedText
  | .done => ResultPrinter.doneText
  | .rows schema found =>
      if found = [] then ResultPrinter.emptyText
      else ResultPrinter.printTable (found.map (List.map (toText doubles))) schema

namespace ResultPrinter

/-! ### Rows and their texts -/

theorem mapM_ok {Item Result Failure : Type} {read : Item → Except Failure Result}
    {result : Item → Result} {items : List Item} (each : ∀ item ∈ items, read item = .ok (result item)) :
    items.mapM read = .ok (items.map result) := by
  induction items with
  | nil => rfl
  | cons item items ih =>
      obtain ⟨first, rest⟩ := List.forall_mem_cons.mp each
      rw [List.mapM_cons, first, ih rest]
      rfl

theorem deserializeRow_encode (doubles : Doubles) {schema : Schema} {values : List Value}
    (matching : Matches schema values) :
    (List.range schema.length).mapM (valueToString doubles (rowCode.encodeAll values) schema)
      = .ok (values.map (toText doubles)) := by
  have isLength : schema.length = values.length := List.Forall₂.length_eq matching
  have each : ∀ column ∈ List.range schema.length,
      valueToString doubles (rowCode.encodeAll values) schema column
        = .ok (((values.map (toText doubles))[column]?).getD []) := by
    intro column member
    have inside : column < values.length := isLength ▸ List.mem_range.mp member
    rw [valueToString, (encodes_read matching inside).2.2, List.getElem?_map,
      List.getElem?_eq_getElem inside]
    rfl
  rw [mapM_ok each, isLength]
  refine congrArg Except.ok (List.ext_getElem ?_ fun column _ inside => ?_)
  · rw [List.length_map, List.length_range, List.length_map]
  · rw [List.getElem_map, List.getElem_range, List.getElem?_eq_getElem inside, Option.getD_some]

/-- **The result of an answer is printed as the answer.** -/
theorem print_result (doubles : Doubles) {reply : Reply}
    (fitting : ∀ schema rows, reply = .rows schema rows → Fitting schema rows) :
    print doubles reply.result = .ok (reply.text doubles) := by
  cases reply with
  | failed => rfl
  | done => rfl
  | rows schema rows =>
      have fits := fitting schema rows rfl
      have texts : deserializeRows doubles (rows.map rowCode.encodeAll) schema
          = .ok (rows.map (List.map (toText doubles))) := by
        rw [deserializeRows, List.mapM_map]
        exact mapM_ok fun values member => deserializeRow_encode doubles (fits values member)
      by_cases nothing : rows = []
      · rw [nothing]
        rfl
      · have notEmpty : rows.map rowCode.encodeAll ≠ [] := fun same =>
          nothing (List.map_eq_nil_iff.mp same)
        simp only [print, Reply.result, Reply.text, if_neg nothing, if_neg notEmpty, texts]
        rfl

/-! ### Column widths -/

theorem le_zipWith_max {first second : List Nat} (lengths : first.length = second.length) :
    List.Forall₂ (· ≤ ·) first (List.zipWith max first second) ∧
      List.Forall₂ (· ≤ ·) second (List.zipWith max first second) := by
  induction first generalizing second with
  | nil =>
      obtain rfl := List.length_eq_zero_iff.mp lengths.symm
      exact ⟨.nil, .nil⟩
  | cons width first ih =>
      cases second with
      | nil => cases lengths
      | cons width' second =>
          obtain ⟨left, right⟩ := ih (Nat.succ.inj lengths)
          exact ⟨.cons (Nat.le_max_left _ _) left, .cons (Nat.le_max_right _ _) right⟩

/-- The texts of a row fit into columns of these widths. -/
def Fits (row : List Bytes) (widths : List Nat) : Prop :=
  List.Forall₂ (fun text width => text.length ≤ width) row widths

theorem Fits.mono {row : List Bytes} {widths widths' : List Nat} (fits : Fits row widths)
    (wider : List.Forall₂ (· ≤ ·) widths widths') : Fits row widths' := by
  induction fits generalizing widths' with
  | nil =>
      cases wider
      exact .nil
  | cons small _ ih =>
      cases wider with
      | cons le rest => exact .cons (Nat.le_trans small le) (ih rest)

/-- The widths after some rows. -/
def widen (widths : List Nat) (rows : List (List Bytes)) : List Nat :=
  rows.foldl (fun widths row => List.zipWith max widths (row.map List.length)) widths

theorem widen_fits (widths : List Nat) {rows : List (List Bytes)}
    (lengths : ∀ row ∈ rows, row.length = widths.length) :
    (widen widths rows).length = widths.length ∧
      (∀ row, Fits row widths → Fits row (widen widths rows)) ∧
      ∀ row ∈ rows, Fits row (widen widths rows) := by
  induction rows generalizing widths with
  | nil => exact ⟨rfl, fun _ => id, List.forall_mem_nil _⟩
  | cons row rows ih =>
      obtain ⟨first, rest⟩ := List.forall_mem_cons.mp lengths
      have same : widths.length = (row.map List.length).length := by rw [List.length_map, first]
      have isLength : (List.zipWith max widths (row.map List.length)).length = widths.length := by
        rw [List.length_zipWith, ← same, Nat.min_self]
      obtain ⟨left, right⟩ := le_zipWith_max same
      have fits : Fits row (List.zipWith max widths (row.map List.length)) :=
        List.forall₂_map_left_iff.mp right
      obtain ⟨finalLength, before, each⟩ :=
        ih (List.zipWith max widths (row.map List.length)) fun row member =>
          (rest row member).trans isLength.symm
      exact ⟨finalLength.trans isLength, fun row fits => before row (fits.mono left),
        List.forall_mem_cons.mpr ⟨before row fits, each⟩⟩

/-- **Every text has room in its column.** -/
theorem columnWidths_fit {stringRows : List (List Bytes)} {schema : Schema}
    (lengths : ∀ row ∈ stringRows, row.length = schema.length) :
    (calculateColumnWidths stringRows schema).length = schema.length ∧
      ∀ row ∈ schema.map RelationAttribute.name :: stringRows,
        Fits row (calculateColumnWidths stringRows schema) := by
  have isLength : (schema.map fun attr => attr.name.length).length = schema.length :=
    List.length_map _
  obtain ⟨finalLength, before, each⟩ := widen_fits (schema.map fun attr => attr.name.length)
    fun row member => (lengths row member).trans isLength.symm
  have header : Fits (schema.map RelationAttribute.name) (schema.map fun attr => attr.name.length) :=
    List.forall₂_map_left_iff.mpr (List.forall₂_map_right_iff.mpr
      (List.forall₂_same.mpr fun _ _ => Nat.le_refl _))
  exact ⟨finalLength.trans isLength, List.forall_mem_cons.mpr ⟨before _ header, each⟩⟩

/-! ### Columns on the screen -/

/-- The columns that a line takes on the screen: one for each printing character of ASCII, and one
for each box character. A line with other characters has no such number. -/
def columns : Bytes → Option Nat
  | [] => some 0
  | byte :: line =>
      if 32 ≤ byte ∧ byte < 127 then (columns line).map (· + 1)
      else match line with
        | second :: last :: line =>
            if byte = 226 ∧ second = 148 ∧ 128 ≤ last ∧ last < 192 then (columns line).map (· + 1)
            else none
        | _ => none

/-- A text of printing characters, which is not too long for `std::setw`. -/
def Printing (text : Bytes) : Prop :=
  (∀ byte ∈ text, 32 ≤ byte ∧ byte < 127) ∧ text.length < 2147483648

/-- A text of ASCII characters in one line. -/
def Plain (text : Bytes) : Prop := ∀ byte ∈ text, byte < 128 ∧ byte ≠ 10

theorem Printing.plain {text : Bytes} (printing : Printing text) : Plain text := by
  intro byte member
  obtain ⟨low, high⟩ := printing.1 byte member
  refine ⟨UInt8.lt_trans high (by decide), ?_⟩
  rintro rfl
  exact absurd low (by decide)

/-- The bytes take this many columns, whatever comes behind them. -/
def Takes (bytes : Bytes) (count : Nat) : Prop :=
  ∀ rest, columns (bytes ++ rest) = (columns rest).map (· + count)

theorem Takes.columns {line : Bytes} {count : Nat} (takes : Takes line count) :
    columns line = some count := by
  have whole := takes []
  rw [List.append_nil] at whole
  rw [whole, ResultPrinter.columns, Option.map_some, Nat.zero_add]

theorem takes_nil : Takes [] 0 := fun _ => Option.map_id'.symm

theorem Takes.append {first second : Bytes} {count count' : Nat} (takes : Takes first count)
    (takes' : Takes second count') : Takes (first ++ second) (count + count') := by
  intro rest
  rw [List.append_assoc, takes, takes', Option.map_map]
  refine congrArg (Option.map · _) (funext fun behind => ?_)
  exact (Nat.add_assoc ..).trans (congrArg _ (Nat.add_comm ..))

theorem takes_byte {byte : UInt8} (printing : 32 ≤ byte ∧ byte < 127) : Takes [byte] 1 := by
  rintro (_ | ⟨second, _ | ⟨last, rest⟩⟩)
  · exact if_pos printing
  · exact if_pos printing
  · exact if_pos printing

theorem takes_box {last : UInt8} (isLast : 128 ≤ last ∧ last < 192) : Takes (box last) 1 := by
  intro rest
  have isBox : (226 : UInt8) = 226 ∧ (148 : UInt8) = 148 ∧ 128 ≤ last ∧ last < 192 :=
    ⟨rfl, rfl, isLast⟩
  exact (if_neg (by decide)).trans (if_pos isBox)

theorem takes_text {text : Bytes} (printing : ∀ byte ∈ text, 32 ≤ byte ∧ byte < 127) :
    Takes text text.length := by
  induction text with
  | nil => exact takes_nil
  | cons byte text ih =>
      obtain ⟨first, rest⟩ := List.forall_mem_cons.mp printing
      rw [List.length_cons, Nat.add_comm]
      exact (takes_byte first).append (ih rest)

theorem takes_horizontal (width : Nat) : Takes (List.replicate width horizontal).flatten width := by
  induction width with
  | zero => exact takes_nil
  | succ width ih =>
      rw [List.replicate_succ, List.flatten_cons, Nat.add_comm]
      exact (takes_box (by decide)).append ih

theorem takes_blanks (count : Nat) : Takes (List.replicate count 32) count := by
  have printing : ∀ byte ∈ List.replicate count (32 : UInt8), 32 ≤ byte ∧ byte < 127 := by
    intro byte member
    rw [(List.mem_replicate.mp member).2]
    decide
  have blanks := takes_text printing
  rwa [List.length_replicate] at blanks

theorem fieldWidth_eq {width : Nat} (small : width < 2147483648) : fieldWidth width = width := by
  rw [fieldWidth, Int32.toInt_ofNat_of_lt small, Int.toNat_natCast]

/-- The columns that each line of a table takes. -/
def tableWidth (widths : List Nat) : Nat := (widths.map (· + 3)).sum + 1

theorem takes_separator {left middle right : UInt8}
    (all : ∀ last ∈ [left, middle, right], 128 ≤ last ∧ last < 192) {widths : List Nat}
    (notEmpty : widths ≠ []) :
    Takes (separator (box left) (box middle) (box right) widths) (tableWidth widths) := by
  have isLeft := takes_box (all left List.mem_cons_self)
  have isMiddle := takes_box (all middle (List.mem_cons_of_mem _ List.mem_cons_self))
  have isRight := takes_box (all right
    (List.mem_cons_of_mem _ (List.mem_cons_of_mem _ List.mem_cons_self)))
  suffices inner : ∃ count, count + 1 = (widths.map (· + 3)).sum ∧
      Takes ((box middle).intercalate
        (widths.map fun width => (List.replicate (width + 2) horizontal).flatten)) count by
    obtain ⟨count, isCount, takes⟩ := inner
    have isWidth : tableWidth widths = 1 + count + 1 := by
      rw [tableWidth, ← isCount, Nat.add_comm 1]
    rw [separator, isWidth]
    exact (isLeft.append takes).append isRight
  obtain ⟨width, widths, rfl⟩ := List.exists_cons_of_ne_nil notEmpty
  clear notEmpty
  induction widths generalizing width with
  | nil =>
      refine ⟨width + 2, rfl, ?_⟩
      rw [List.map_singleton, List.intercalate_singleton]
      exact takes_horizontal _
  | cons next widths ih =>
      obtain ⟨count, isCount, takes⟩ := ih next
      rw [List.map_cons] at takes
      refine ⟨width + 2 + 1 + count, ?_, ?_⟩
      · rw [List.map_cons, List.sum_cons, ← isCount]
        omega
      · rw [List.map_cons, List.map_cons, List.intercalate_cons_of_ne_nil (List.cons_ne_nil _ _)]
        exact ((takes_horizontal _).append isMiddle).append takes

theorem takes_printCell {text : Bytes} {width : Nat} (printing : Printing text)
    (fits : text.length ≤ width) (small : width < 2147483648) :
    Takes (printCell text width) (width + 3) := by
  have isEnd : Takes (32 :: vertical) (1 + 1) :=
    (takes_byte (by decide)).append (takes_box (by decide))
  have isField : text.length + (width - text.length) = width := by omega
  have field := (takes_text printing.1).append (takes_blanks (width - text.length))
  rw [isField] at field
  have blank := takes_byte (by decide : (32 : UInt8) ≤ 32 ∧ (32 : UInt8) < 127)
  have cell := (blank.append field).append isEnd
  rw [printCell, fieldWidth_eq small]
  rwa [Nat.add_comm 1 width] at cell

theorem takes_printRow {row : List Bytes} {widths : List Nat}
    (printing : ∀ text ∈ row, Printing text) (fits : Fits row widths)
    (small : ∀ width ∈ widths, width < 2147483648) :
    Takes (printRow row widths) (tableWidth widths) := by
  suffices cells : Takes (List.zipWith printCell row widths).flatten (widths.map (· + 3)).sum by
    rw [printRow, tableWidth, Nat.add_comm]
    exact (takes_box (by decide)).append cells
  induction fits with
  | nil => exact takes_nil
  | cons room _ ih =>
      obtain ⟨first, rest⟩ := List.forall_mem_cons.mp printing
      obtain ⟨firstSmall, restSmall⟩ := List.forall_mem_cons.mp small
      rw [List.zipWith_cons_cons, List.flatten_cons, List.map_cons, List.sum_cons]
      exact (takes_printCell first room firstSmall).append (ih rest restSmall)

theorem widen_small {widths : List Nat} {rows : List (List Bytes)} {bound : Nat}
    (small : ∀ width ∈ widths, width < bound)
    (texts : ∀ row ∈ rows, ∀ text ∈ row, text.length < bound) :
    ∀ width ∈ widen widths rows, width < bound := by
  induction rows generalizing widths with
  | nil => exact small
  | cons row rows ih =>
      obtain ⟨first, rest⟩ := List.forall_mem_cons.mp texts
      refine ih (fun width member => ?_) rest
      dsimp only at member
      rw [List.zipWith_map_right] at member
      obtain ⟨index, inside, rfl⟩ := List.mem_iff_getElem.mp member
      rw [List.getElem_zipWith]
      exact Nat.max_lt.mpr ⟨small _ (List.getElem_mem _), first _ (List.getElem_mem _)⟩

/-! ### Lines -/

/-- No byte of a box character is one of ASCII. -/
theorem box_high {last : UInt8} (isLast : 128 ≤ last) : ∀ byte ∈ box last, 128 ≤ byte :=
  List.forall_mem_cons.mpr ⟨by decide, List.forall_mem_cons.mpr ⟨by decide,
    List.forall_mem_singleton.mpr isLast⟩⟩

theorem separator_high {left middle right : UInt8}
    (all : ∀ last ∈ [left, middle, right], 128 ≤ last) (widths : List Nat) :
    ∀ byte ∈ separator (box left) (box middle) (box right) widths, 128 ≤ byte := by
  have isMiddle := all middle (List.mem_cons_of_mem _ List.mem_cons_self)
  have isRight := all right (List.mem_cons_of_mem _ (List.mem_cons_of_mem _ List.mem_cons_self))
  have run : ∀ width, ∀ byte ∈ (List.replicate (width + 2) horizontal).flatten, 128 ≤ byte := by
    intro width byte member
    obtain ⟨part, isPart, inside⟩ := List.mem_flatten.mp member
    rw [(List.mem_replicate.mp isPart).2] at inside
    exact box_high (by decide) byte inside
  refine List.forall_mem_append.mpr ⟨List.forall_mem_append.mpr
    ⟨box_high (all left List.mem_cons_self), ?_⟩, box_high isRight⟩
  induction widths with
  | nil => exact List.forall_mem_nil _
  | cons width widths ih =>
      cases widths with
      | nil =>
          rw [List.map_singleton, List.intercalate_singleton]
          exact run width
      | cons next widths =>
          rw [List.map_cons] at ih
          rw [List.map_cons, List.map_cons, List.intercalate_cons_of_ne_nil (List.cons_ne_nil _ _)]
          exact List.forall_mem_append.mpr ⟨List.forall_mem_append.mpr ⟨run width,
            box_high isMiddle⟩, ih⟩

theorem newline_of_high {line : Bytes} (high : ∀ byte ∈ line, 128 ≤ byte) : 10 ∉ line :=
  fun member => absurd (high 10 member) (by decide)

/-- What is between two of the lines in a row, up to the last byte of the second one. -/
def cellPart (text : Bytes) (width : Nat) : Bytes :=
  32 :: (text ++ List.replicate (fieldWidth width - text.length) 32) ++ [32, 226, 148]

theorem printRow_eq (row : List Bytes) (widths : List Nat) :
    printRow row widths = vertical ++ terminated 130 (List.zipWith cellPart row widths) := by
  have each : printCell = fun text width => cellPart text width ++ [130] := by
    funext text width
    simp only [printCell, cellPart, vertical, box, List.cons_append, List.append_assoc,
      List.nil_append]
  rw [printRow, terminated, List.flatMap_def, List.map_zipWith, each]

theorem mem_cellPart {row : List Bytes} {widths : List Nat} {part : Bytes}
    (member : part ∈ List.zipWith cellPart row widths) :
    ∃ text ∈ row, ∃ width, part = cellPart text width := by
  rw [← List.map_uncurry_zip_eq_zipWith] at member
  obtain ⟨⟨text, width⟩, isPair, rfl⟩ := List.mem_map.mp member
  exact ⟨text, (List.of_mem_zip isPair).1, width, rfl⟩

/-- The bytes of a plain text and those around it. -/
theorem byte_cellPart {text : Bytes} (plain : Plain text) (width : Nat) :
    ∀ byte ∈ cellPart text width, byte ≠ 10 ∧ byte ≠ 130 := by
  have isText : ∀ byte ∈ text, byte ≠ 10 ∧ byte ≠ 130 := by
    intro byte member
    obtain ⟨small, notNewline⟩ := plain byte member
    refine ⟨notNewline, ?_⟩
    rintro rfl
    exact absurd small (by decide)
  have isBlank : ∀ byte ∈ List.replicate (fieldWidth width - text.length) (32 : UInt8),
      byte ≠ 10 ∧ byte ≠ 130 := by
    intro byte member
    rw [(List.mem_replicate.mp member).2]
    decide
  refine List.forall_mem_append.mpr ⟨List.forall_mem_cons.mpr ⟨by decide, ?_⟩, ?_⟩
  · exact List.forall_mem_append.mpr ⟨isText, isBlank⟩
  · simp

theorem newline_printRow {row : List Bytes} (plain : ∀ text ∈ row, Plain text) (widths : List Nat) :
    10 ∉ printRow row widths := by
  have isVertical : (10 : UInt8) ∉ vertical := by decide
  rw [printRow_eq, List.mem_append, not_or]
  refine ⟨isVertical, fun member => ?_⟩
  obtain ⟨part, isPart, inside⟩ := List.mem_flatMap.mp member
  obtain ⟨text, isText, width, rfl⟩ := mem_cellPart isPart
  rcases List.mem_append.mp inside with inside | isLast
  · exact (byte_cellPart (plain text isText) width 10 inside).1 rfl
  · exact absurd (List.mem_singleton.mp isLast) (by decide)

theorem newline_summary (count : Nat) : 10 ∉ summary count := by
  have digits : 10 ∉ decimal count := fun member =>
    absurd (decimal_isDigit count 10 member) (by decide)
  have row : 10 ∉ ascii " row" := by decide
  have one : 10 ∉ ascii "s" := by decide
  have rest : 10 ∉ ascii " in set" := by decide
  simp only [summary, List.mem_append, not_or]
  refine ⟨⟨⟨digits, row⟩, ?_⟩, rest⟩
  split
  · exact List.not_mem_nil
  · exact one

/-- All texts of a table, its header included, are like this. -/
def AllTexts (P : Bytes → Prop) (stringRows : List (List Bytes)) (schema : Schema) : Prop :=
  ∀ row ∈ schema.map RelationAttribute.name :: stringRows, ∀ text ∈ row, P text

theorem AllTexts.imp {P Q : Bytes → Prop} {stringRows : List (List Bytes)} {schema : Schema}
    (all : AllTexts P stringRows schema) (weaken : ∀ text, P text → Q text) :
    AllTexts Q stringRows schema :=
  fun row isRow text isText => weaken text (all row isRow text isText)

section Table

variable {stringRows : List (List Bytes)} {schema : Schema}

/-- The lines of a table: separators, and rows. -/
theorem tableLines_cases {line : Bytes} (member : line ∈ tableLines stringRows schema) :
    (∃ last ∈ [(140, 172, 144), (156, 188, 164), (148, 180, 152)],
        line = separator (box last.1) (box last.2.1) (box last.2.2)
          (calculateColumnWidths stringRows schema)) ∨
      ∃ row ∈ schema.map RelationAttribute.name :: stringRows,
        line = printRow row (calculateColumnWidths stringRows schema) := by
  rcases List.mem_append.mp member with member | isFooter
  · rcases List.mem_cons.mp member with rfl | member
    · exact Or.inl ⟨(140, 172, 144), by simp, rfl⟩
    · rcases List.mem_cons.mp member with rfl | member
      · exact Or.inr ⟨_, List.mem_cons_self, rfl⟩
      · rcases List.mem_cons.mp member with rfl | member
        · exact Or.inl ⟨(156, 188, 164), by simp, rfl⟩
        · obtain ⟨row, isRow, rfl⟩ := List.mem_map.mp member
          exact Or.inr ⟨row, List.mem_cons_of_mem _ isRow, rfl⟩
  · rw [List.mem_singleton.mp isFooter]
    exact Or.inl ⟨(148, 180, 152), by simp, rfl⟩

theorem newline_tableLines (plain : AllTexts Plain stringRows schema) :
    ∀ line ∈ tableLines stringRows schema, 10 ∉ line := by
  intro line member
  rcases tableLines_cases member with ⟨last, isLast, rfl⟩ | ⟨row, isRow, rfl⟩
  · refine newline_of_high (separator_high ?_ _)
    simp only [List.mem_cons, List.not_mem_nil, or_false] at isLast
    rcases isLast with rfl | rfl | rfl <;> simp
  · exact newline_printRow (plain row isRow) _

/-- **The lines of a table take the same number of columns.** -/
theorem columns_tableLines (printing : AllTexts Printing stringRows schema)
    (lengths : ∀ row ∈ stringRows, row.length = schema.length) (notEmpty : schema ≠ []) :
    ∀ line ∈ tableLines stringRows schema,
      columns line = some (tableWidth (calculateColumnWidths stringRows schema)) := by
  obtain ⟨isLength, fits⟩ := columnWidths_fit lengths
  have small : ∀ width ∈ calculateColumnWidths stringRows schema, width < 2147483648 := by
    obtain ⟨header, rows⟩ := List.forall_mem_cons.mp printing
    refine widen_small ?_ fun row member text inside => (rows row member text inside).2
    exact List.forall_mem_map.mpr fun attr member => (header _ (List.mem_map_of_mem member)).2
  have someWidths : calculateColumnWidths stringRows schema ≠ [] := by
    rintro nothing
    rw [nothing] at isLength
    exact notEmpty (List.length_eq_zero_iff.mp isLength.symm)
  intro line member
  refine Takes.columns ?_
  rcases tableLines_cases member with ⟨last, isLast, rfl⟩ | ⟨row, isRow, rfl⟩
  · refine takes_separator ?_ someWidths
    simp only [List.mem_cons, List.not_mem_nil, or_false] at isLast
    rcases isLast with rfl | rfl | rfl <;> simp
  · exact takes_printRow (printing row isRow) (fits row isRow) small

/-! ### Reading a table back -/

/-- The text without the blanks at its end. -/
def withoutBlanks (text : Bytes) : Bytes := text.rdropWhile fun byte => byte = 32

/-- The text of a part of a row, between its blanks. -/
def readPart (part : Bytes) : Bytes := withoutBlanks ((part.drop 1).dropLast.dropLast)

/-- The texts of a row. -/
def readRow (line : Bytes) : List Bytes :=
  ((line.drop vertical.length).splitOn 130).dropLast.map readPart

/-- The rows of a table: its header first. -/
def readTable (output : Bytes) : List (List Bytes) :=
  ((output.splitOn 10).filter fun line => vertical.isPrefixOf line).map readRow

theorem readPart_cellPart (text : Bytes) (width : Nat) :
    readPart (cellPart text width) = withoutBlanks text := by
  have blanks : ∀ count, withoutBlanks (text ++ List.replicate count 32) = withoutBlanks text := by
    intro count
    induction count with
    | zero => rw [List.replicate_zero, List.append_nil]
    | succ count ih =>
        rw [List.replicate_succ', ← List.append_assoc, withoutBlanks, List.rdropWhile_concat_pos,
          ← withoutBlanks, ih]
        exact decide_eq_true rfl
  have shape : cellPart text width
      = 32 :: ((text ++ List.replicate (fieldWidth width - text.length + 1) 32) ++ [226] ++ [148]) := by
    simp only [cellPart, List.replicate_succ', List.cons_append, List.append_assoc, List.nil_append]
  rw [shape, readPart, List.drop_succ_cons, List.drop_zero, List.dropLast_concat,
    List.dropLast_concat, blanks]

/-- **A row is read back.** -/
theorem readRow_printRow {row : List Bytes} {widths : List Nat} (plain : ∀ text ∈ row, Plain text)
    (lengths : row.length = widths.length) :
    readRow (printRow row widths) = row.map withoutBlanks := by
  have outside : ∀ part ∈ List.zipWith cellPart row widths, 130 ∉ part := by
    intro part member inside
    obtain ⟨text, isText, width, rfl⟩ := mem_cellPart member
    exact (byte_cellPart (plain text isText) width 130 inside).2 rfl
  rw [readRow, printRow_eq, List.drop_left, splitOn_terminated outside, List.dropLast_concat,
    List.map_zipWith]
  simp only [readPart_cellPart]
  clear outside plain
  induction row generalizing widths with
  | nil => rfl
  | cons text row ih =>
      cases widths with
      | nil => cases lengths
      | cons width widths =>
          rw [List.zipWith_cons_cons, ih (Nat.succ.inj lengths), List.map_cons]

theorem vertical_separator {left middle right : UInt8} (other : left ≠ 130) (widths : List Nat) :
    vertical.isPrefixOf (separator (box left) (box middle) (box right) widths) = false := by
  rw [separator, List.append_assoc]
  simp [vertical, box, List.isPrefixOf, Ne.symm other]

theorem vertical_summary (count : Nat) : vertical.isPrefixOf (summary count) = false := by
  obtain ⟨first, rest, isCons⟩ := List.exists_cons_of_ne_nil (decimal_ne_nil count)
  have isDigit : IsDigit first := decimal_isDigit count first (isCons ▸ List.mem_cons_self)
  have other : (226 : UInt8) ≠ first := by
    rintro rfl
    exact absurd isDigit (by decide)
  rw [summary, isCons]
  simp [vertical, box, List.isPrefixOf, other]

theorem vertical_printRow (row : List Bytes) (widths : List Nat) :
    vertical.isPrefixOf (printRow row widths) = true := by
  rw [List.isPrefixOf_iff_prefix, printRow]
  exact List.prefix_append _ _

/-- **A table is read back from what is printed**, but for blanks at the end of a text. -/
theorem readTable_printTable (plain : AllTexts Plain stringRows schema)
    (lengths : ∀ row ∈ stringRows, row.length = schema.length) :
    readTable (printTable stringRows schema)
      = (schema.map RelationAttribute.name :: stringRows).map (List.map withoutBlanks) := by
  have noNewline : ∀ line ∈ tableLines stringRows schema ++ [summary stringRows.length],
      10 ∉ line :=
    List.forall_mem_append.mpr ⟨newline_tableLines plain,
      List.forall_mem_singleton.mpr (newline_summary _)⟩
  have isRead : ∀ row ∈ schema.map RelationAttribute.name :: stringRows,
      readRow (printRow row (calculateColumnWidths stringRows schema)) = row.map withoutBlanks :=
    fun row member => readRow_printRow (plain row member)
      (List.Forall₂.length_eq ((columnWidths_fit lengths).2 row member))
  obtain ⟨isHeader, areRows⟩ := List.forall_mem_cons.mp isRead
  have rows : (stringRows.map fun row => printRow row (calculateColumnWidths stringRows schema)).filter
      (fun line => vertical.isPrefixOf line)
        = stringRows.map fun row => printRow row (calculateColumnWidths stringRows schema) :=
    List.filter_eq_self.mpr (List.forall_mem_map.mpr fun row _ => vertical_printRow row _)
  have others : vertical.isPrefixOf ([] : Bytes) = false := rfl
  rw [readTable, printTable, splitOn_terminated noNewline]
  simp only [tableLines, headerSeparator, rowSeparator, footerSeparator, List.cons_append,
    List.filter_cons, List.filter_append, List.filter_nil, rows, others, vertical_printRow,
    vertical_summary, vertical_separator (by decide : (140 : UInt8) ≠ 130),
    vertical_separator (by decide : (156 : UInt8) ≠ 130),
    vertical_separator (by decide : (148 : UInt8) ≠ 130), Bool.false_eq_true, if_false, if_true,
    List.append_nil, List.map_cons, List.map_map, isHeader]
  exact congrArg _ (List.map_congr_left areRows)

end Table

/-! ### The results of queries -/

section Results

variable {schema : Schema} {rows : List (List Value)}

/-- The names of the columns and the texts of the values are like this. -/
def ResultTexts (P : Bytes → Prop) (doubles : Doubles) (schema : Schema)
    (rows : List (List Value)) : Prop :=
  AllTexts P (rows.map (List.map (toText doubles))) schema

theorem print_rows (doubles : Doubles) (fitting : Fitting schema rows) (some_ : rows ≠ []) :
    print doubles (Reply.rows schema rows).result
      = .ok (printTable (rows.map (List.map (toText doubles))) schema) := by
  have printed : print doubles (Reply.rows schema rows).result
      = .ok ((Reply.rows schema rows).text doubles) := by
    refine print_result doubles fun schema' rows' same => ?_
    cases same
    exact fitting
  rw [printed, Reply.text, if_neg some_]

theorem lengths_texts (doubles : Doubles) (fitting : Fitting schema rows) :
    ∀ row ∈ rows.map (List.map (toText doubles)), row.length = schema.length :=
  List.forall_mem_map.mpr fun values member => by
    rw [List.length_map]
    exact (List.Forall₂.length_eq (fitting values member)).symm

/-- **The table of a result is aligned**: its lines take the same number of columns on the screen. -/
theorem print_aligned (doubles : Doubles) (fitting : Fitting schema rows) (some_ : rows ≠ [])
    (notEmpty : schema ≠ []) (printing : ResultTexts Printing doubles schema rows) :
    ∃ lines width, print doubles (Reply.rows schema rows).result
        = .ok (terminated 10 (lines ++ [summary rows.length])) ∧
      lines.length = rows.length + 4 ∧ ∀ line ∈ lines, 10 ∉ line ∧ columns line = some width := by
  have plain := printing.imp fun _ => Printing.plain
  refine ⟨_, _, ?_, ?_, fun line member => ⟨newline_tableLines plain line member,
    columns_tableLines printing (lengths_texts doubles fitting) notEmpty line member⟩⟩
  · rw [print_rows doubles fitting some_, printTable, List.length_map]
  · rw [tableLines]
    simp only [List.cons_append, List.length_cons, List.length_append, List.length_map,
      List.length_nil]

/-- **The table of a result is read back**: the names of its columns and the texts of its rows, but
for blanks at the end of a text. -/
theorem readTable_print (doubles : Doubles) (fitting : Fitting schema rows) (some_ : rows ≠ [])
    (plain : ResultTexts Plain doubles schema rows) :
    (print doubles (Reply.rows schema rows).result).map readTable
      = .ok ((schema.map RelationAttribute.name :: rows.map (List.map (toText doubles))).map
          (List.map withoutBlanks)) := by
  rw [print_rows doubles fitting some_, Except.map,
    readTable_printTable plain (lengths_texts doubles fitting)]

end Results

/-- `a` and `name`, of two rows. -/
def twoColumns : Schema := [⟨[97], 2⟩, ⟨[110, 97, 109, 101], 1⟩]

def twoRows : List (List Value) := [[.u32 7, .string [120]], [.u32 1200, .string []]]

theorem twoRows_fitting : Fitting twoColumns twoRows := by
  unfold Fitting
  decide

theorem twoRows_printing : ResultTexts Printing noDoubles twoColumns twoRows := by
  have texts : twoRows.map (List.map (toText noDoubles)) = [[[55], [120]], [[49, 50, 48, 48], []]] := by
    decide
  unfold ResultTexts AllTexts Printing
  rw [texts]
  simp [twoColumns]

theorem twoRows_aligned : ∃ lines width,
    print noDoubles (Reply.rows twoColumns twoRows).result
        = .ok (terminated 10 (lines ++ [summary twoRows.length])) ∧
      lines.length = twoRows.length + 4 ∧ ∀ line ∈ lines, 10 ∉ line ∧ columns line = some width :=
  print_aligned noDoubles twoRows_fitting (List.cons_ne_nil _ _) (List.cons_ne_nil _ _)
    twoRows_printing

theorem twoRows_read : (print noDoubles (Reply.rows twoColumns twoRows).result).map readTable
    = .ok ((twoColumns.map RelationAttribute.name :: twoRows.map (List.map (toText noDoubles))).map
        (List.map withoutBlanks)) :=
  readTable_print noDoubles twoRows_fitting (List.cons_ne_nil _ _)
    (twoRows_printing.imp fun _ => Printing.plain)

end ResultPrinter

end Yadb
