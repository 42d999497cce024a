/-
**The execution of a `SELECT`.**

`optimizer.cpp`, the iterators below it and `Executor::execute(SelectStmt)`: a scan of the table, a
selection over it and a projection over that, each of which holds its current row loaded ahead, and
the schema of the result, which the executor builds on its own. A selection reads a table, as the
optimizer builds it.

`Parameters` are the parser of literals (`ValueFromString`) and the order of two values of one type.
Every failure but one of the row reader is an exception, which the executor turns into a result
without success.
-/

import Yadb.Core.RowReader

namespace Yadb

open Foundation

/-! ### Statements -/

inductive ComparisonOp
  | eq | neq | lt | gt | le | ge
  deriving DecidableEq

inductive LogicalOp
  | and | or
  deriving DecidableEq

/-- A column by its name, or the text of a literal. -/
inductive Operand
  | column (name : Bytes)
  | literal (text : Bytes)

inductive Condition
  | comparison (left : Operand) (op : ComparisonOp) (right : Operand)
  | logical (left : Condition) (op : LogicalOp) (right : Condition)

structure SelectStmt where
  tableName : Bytes
  selectAll : Bool
  columns : List Bytes
  whereClause : Option Condition

structure Parameters where
  valueFromString : TypeId → Bytes → Option Value
  compare : ComparisonOp → Value → Value → Bool

/-- A table manager, as far as a `SELECT` asks it. -/
structure Tables where
  tableExists : Bytes → Bool
  getTable : Bytes → Option (Schema × List Bytes)

inductive SelectFailure
  | tableMissing (name : Bytes)
  | tableUnavailable (name : Bytes)
  | unknownColumn (name : Bytes)
  | columnMissing (name tableName : Bytes)
  | badLiteral (type : TypeId) (text : Bytes)
  | cannotCompare (left right : DataType)
  /-- A failed assertion, which aborts. -/
  | unreadable (failure : ReadFailure)

/-! ### Conditions -/

namespace SelectionIterator

/-- `column_index`: the first column with the name. -/
def columnIndexFrom (name : Bytes) : Nat → Schema → Except SelectFailure Nat
  | _, [] => .error (.unknownColumn name)
  | index, attr :: schema =>
      if attr.name = name then .ok index else columnIndexFrom name (index + 1) schema

def columnIndex (schema : Schema) (name : Bytes) : Except SelectFailure Nat :=
  columnIndexFrom name 0 schema

/-- `schema_m[column_index(column)].type`. -/
def columnType (schema : Schema) (name : Bytes) : Except SelectFailure TypeId := do
  let index ← columnIndex schema name
  match schema[index]? with
  | some attr => return attr.type
  | none => throw (.unknownColumn name)

/-- Literals take the type of the column they are compared with, and are strings without one. -/
def comparisonType (schema : Schema) : Operand → Operand → Except SelectFailure TypeId
  | .column name, _ => columnType schema name
  | .literal _, .column name => columnType schema name
  | .literal _, .literal _ => .ok DataType.string.typeId

def resolveOperand (parameters : Parameters) (schema : Schema) (type : TypeId) (tuple : Bytes) :
    Operand → Except SelectFailure Value
  | .column name => do
      let index ← columnIndex schema name
      (RowReader.getValue ⟨tuple, schema⟩ index).mapError .unreadable
  | .literal text => match parameters.valueFromString type text with
    | some value => .ok value
    | none => .error (.badLiteral type text)

def compareValues (parameters : Parameters) (left : Value) (op : ComparisonOp) (right : Value) :
    Except SelectFailure Bool :=
  if left.type = right.type then .ok (parameters.compare op left right)
  else .error (.cannotCompare left.type right.type)

/-- `evaluate_condition`; a right operand that cannot change the result is not evaluated. -/
def evaluateCondition (parameters : Parameters) (schema : Schema) (tuple : Bytes) :
    Condition → Except SelectFailure Bool
  | .comparison left op right => do
      let type ← comparisonType schema left right
      let leftValue ← resolveOperand parameters schema type tuple left
      let rightValue ← resolveOperand parameters schema type tuple right
      compareValues parameters leftValue op rightValue
  | .logical left op right => do
      let leftResult ← evaluateCondition parameters schema tuple left
      if op = .and ∧ leftResult = false then return false
      else if op = .or ∧ leftResult = true then return true
      else
        let rightResult ← evaluateCondition parameters schema tuple right
        return if op = .and then leftResult && rightResult else leftResult || rightResult

/-- `find_next_match`: the rows from the next match on, in a table of which these rows are left. -/
def findNextMatch (parameters : Parameters) (schema : Schema) (condition : Condition) :
    List Bytes → Except SelectFailure (List Bytes)
  | [] => .ok []
  | row :: rows => do
      if ← evaluateCondition parameters schema row condition then return row :: rows
      else findNextMatch parameters schema condition rows

end SelectionIterator

/-! ### Iterators -/

/-- `cursor` are the rows from the current one on, `current` is the row that was loaded. -/
inductive RowIterator
  | fileScan (cursor : List Bytes) (current : Option Bytes)
  | selection (cursor : List Bytes) (schema : Schema) (condition : Condition) (current : Option Bytes)
  | projection (input : RowIterator) (schema : Schema) (selectedFields : List Nat)
      (current : Option Bytes)

namespace RowIterator

def current : RowIterator → Option Bytes
  | fileScan _ current | selection _ _ _ current | projection _ _ _ current => current

/-- The number of rows of the table from the current one on. -/
def rowsLeft : RowIterator → Nat
  | fileScan cursor _ | selection cursor _ _ _ => cursor.length
  | projection input _ _ _ => input.rowsLeft

/-- The constructor of a file scan, and its `operator++` after the cursor moved: `load_current`. -/
def loadFileScan (cursor : List Bytes) : RowIterator := fileScan cursor cursor.head?

/-- The constructor of a selection, and its `operator++` after the cursor moved. -/
def loadSelection (parameters : Parameters) (schema : Schema) (condition : Condition)
    (cursor : List Bytes) : Except SelectFailure RowIterator := do
  let rest ← SelectionIterator.findNextMatch parameters schema condition cursor
  return selection rest schema condition rest.head?

/-- The loop of `project` that adds up the sizes. -/
def totalSize (row : Bytes) (schema : Schema) : List Nat → Except SelectFailure Nat
  | [] => .ok 0
  | field :: fields => do
      let size ← (RowReader.getSize ⟨row, schema⟩ field).mapError SelectFailure.unreadable
      return size + (← totalSize row schema fields)

/-- The loop of `project` that copies the fields. -/
def copyFields (row : Bytes) (schema : Schema) : List Nat → Except SelectFailure Bytes
  | [] => .ok []
  | field :: fields => do
      let offset ← (RowReader.getOffset ⟨row, schema⟩ field).mapError SelectFailure.unreadable
      let size ← (RowReader.getSize ⟨row, schema⟩ field).mapError SelectFailure.unreadable
      return (row.drop offset).take size ++ (← copyFields row schema fields)

def project (schema : Schema) (selectedFields : List Nat) (row : Bytes) :
    Except SelectFailure Bytes := do
  let _ ← totalSize row schema selectedFields
  copyFields row schema selectedFields

/-- The constructor of a projection, and its `operator++` after its input moved. -/
def loadProjection (schema : Schema) (selectedFields : List Nat) (input : RowIterator) :
    Except SelectFailure RowIterator :=
  match input.current with
  | none => .ok (projection input schema selectedFields none)
  | some row => do
      let projected ← project schema selectedFields row
      return projection input schema selectedFields (some projected)

/-- `operator++`. -/
def next (parameters : Parameters) : RowIterator → Except SelectFailure RowIterator
  | fileScan cursor _ => .ok (loadFileScan cursor.tail)
  | selection cursor schema condition _ => loadSelection parameters schema condition cursor.tail
  | projection input schema selectedFields _ => do
      loadProjection schema selectedFields (← next parameters input)

end RowIterator

/-! ### The optimizer and the executor -/

namespace Optimizer

/-- The loop over the schema for one selected column. -/
def selectedIndex (name tableName : Bytes) : Nat → Schema → Except SelectFailure Nat
  | _, [] => .error (.columnMissing name tableName)
  | index, attr :: schema =>
      if attr.name = name then .ok index else selectedIndex name tableName (index + 1) schema

/-- The loop over the selected columns. -/
def selectedIndices (schema : Schema) (tableName : Bytes) : List Bytes → Except SelectFailure (List Nat)
  | [] => .ok []
  | name :: names => do
      let index ← selectedIndex name tableName 0 schema
      return index :: (← selectedIndices schema tableName names)

def getExecutionIterator (parameters : Parameters) (tables : Tables) (stmt : SelectStmt) :
    Except SelectFailure RowIterator := do
  if tables.tableExists stmt.tableName = false then throw (.tableMissing stmt.tableName)
  else
    match tables.getTable stmt.tableName with
    | none => throw (.tableUnavailable stmt.tableName)
    | some (schema, rows) =>
        let input ← match stmt.whereClause with
          | none => pure (RowIterator.loadFileScan rows)
          | some condition => RowIterator.loadSelection parameters schema condition rows
        if stmt.selectAll then return input
        else
          let indices ← selectedIndices schema stmt.tableName stmt.columns
          RowIterator.loadProjection schema indices input

end Optimizer

structure ExecutionResult where
  success : Bool
  rows : Option (List Bytes)
  schema : Option Schema

namespace Executor

/-- The loop over the rows of the iterator, which has at most so many. -/
def collect (parameters : Parameters) : Nat → RowIterator → Except SelectFailure (List Bytes)
  | 0, _ => .ok []
  | fuel + 1, iterator => match iterator.current with
    | none => .ok []
    | some row => do
        return row :: (← collect parameters fuel (← iterator.next parameters))

/-- The first attribute with the name, if there is one. -/
def resultAttribute (name : Bytes) : Schema → Schema
  | [] => []
  | attr :: schema => if attr.name = name then [attr] else resultAttribute name schema

def resultSchema (stmt : SelectStmt) (schema : Schema) : Schema :=
  if stmt.selectAll then schema
  else stmt.columns.flatMap fun name => resultAttribute name schema

/-- The body of the `try`. -/
def trySelect (parameters : Parameters) (tables : Tables) (stmt : SelectStmt) :
    Except SelectFailure ExecutionResult := do
  let iterator ← Optimizer.getExecutionIterator parameters tables stmt
  let rows ← collect parameters iterator.rowsLeft iterator
  match tables.getTable stmt.tableName with
  | none => return ⟨false, none, none⟩
  | some (schema, _) => return ⟨true, some rows, some (resultSchema stmt schema)⟩

/-- `execute(SelectStmt)`; only a failed assertion comes out of it. -/
def executeSelect (parameters : Parameters) (tables : Tables) (stmt : SelectStmt) :
    Except ReadFailure ExecutionResult :=
  match trySelect parameters tables stmt with
  | .ok result => .ok result
  | .error (.unreadable failure) => .error failure
  | .error _ => .ok ⟨false, none, none⟩

end Executor

end Yadb
