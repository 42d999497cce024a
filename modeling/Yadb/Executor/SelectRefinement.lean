/-
**A `SELECT` is a projection of a selection.**

What a statement asks for, over the values of the rows: `satisfies` is the truth of a condition on a
row, `chosen` the values of the selected columns, where a name stands for the first column that has
it. `select_projects`: the rows of a successful execution decode under its schema to the chosen
values of the rows that satisfy the condition, in scan order.

Each iterator has a lemma about the rows that `collect` gets out of it: a scan gives its rows, a
selection the rows that satisfy its condition, a projection the projections of the rows of its
input.
-/

import Yadb.Foundation.Fallible
import Yadb.Executor.Select

namespace Yadb

open Foundation

/-! ### What a statement asks for -/

/-- The first column with the name. -/
def firstColumn (schema : Schema) (name : Bytes) : Option Nat :=
  schema.findIdx? fun attr => attr.name = name

def valueOf (schema : Schema) (values : List Value) (name : Bytes) : Option Value :=
  (firstColumn schema name).bind fun pos => values[pos]?

def typeOfColumn (schema : Schema) (name : Bytes) : Option TypeId :=
  (firstColumn schema name).bind fun pos => schema[pos]?.map RelationAttribute.type

/-- The type of the column that a literal is compared with; of two literals, strings. -/
def literalType (schema : Schema) : Operand → Operand → Option TypeId
  | .column name, _ | .literal _, .column name => typeOfColumn schema name
  | .literal _, .literal _ => some DataType.string.typeId

def operandValue (parameters : Parameters) (schema : Schema) (values : List Value) (type : TypeId) :
    Operand → Option Value
  | .column name => valueOf schema values name
  | .literal text => parameters.valueFromString type text

def comparison (parameters : Parameters) (schema : Schema) (values : List Value)
    (left : Operand) (op : ComparisonOp) (right : Operand) : Option Bool := do
  let type ← literalType schema left right
  let leftValue ← operandValue parameters schema values type left
  let rightValue ← operandValue parameters schema values type right
  return parameters.compare op leftValue rightValue

/-- The condition is true of the values; `&&` and `||` ignore a right operand that cannot matter. -/
def satisfies (parameters : Parameters) (schema : Schema) : Condition → List Value → Bool
  | .comparison left op right, values =>
      (comparison parameters schema values left op right).getD false
  | .logical left .and right, values =>
      satisfies parameters schema left values && satisfies parameters schema right values
  | .logical left .or right, values =>
      satisfies parameters schema left values || satisfies parameters schema right values

def selected (parameters : Parameters) (schema : Schema) (stmt : SelectStmt)
    (values : List Value) : Bool :=
  match stmt.whereClause with
  | none => true
  | some condition => satisfies parameters schema condition values

/-- The values of the selected columns. -/
def chosen (schema : Schema) (stmt : SelectStmt) (values : List Value) : Option (List Value) :=
  if stmt.selectAll then some values else stmt.columns.mapM (valueOf schema values)

/-- Every column of the row reads back its value. -/
def Decodes (schema : Schema) (row : Bytes) (values : List Value) : Prop :=
  values.length = schema.length ∧ ∀ pos (inside : pos < values.length),
    RowReader.getValue ⟨row, schema⟩ pos = .ok values[pos]

variable {parameters : Parameters} {schema : Schema} {values : List Value}

theorem decodes_encodeAll (matching : Matches schema values) :
    Decodes schema (rowCode.encodeAll values) values :=
  ⟨matching.length_eq.symm, fun _ inside => (encodes_read matching inside).2.2⟩

/-! ### The names of columns -/

theorem firstColumn_cons (attr : RelationAttribute) (schema : Schema) (name : Bytes) :
    firstColumn (attr :: schema) name
      = if attr.name = name then some 0 else (firstColumn schema name).map (· + 1) := by
  rw [firstColumn, List.findIdx?_cons]
  by_cases found : attr.name = name
  · rw [if_pos found, if_pos (decide_eq_true found)]
  · rw [if_neg found, if_neg (by simpa using found)]
    rfl

theorem firstColumn_lt {name : Bytes} {pos : Nat} (found : firstColumn schema name = some pos) :
    pos < schema.length := by
  obtain ⟨inside, _⟩ := List.findIdx?_eq_some_iff_getElem.mp found
  exact inside

theorem columnIndexFrom_ok {name : Bytes} {start index : Nat}
    (ok : SelectionIterator.columnIndexFrom name start schema = .ok index) :
    ∃ pos, firstColumn schema name = some pos ∧ index = start + pos := by
  induction schema generalizing start with
  | nil => cases ok
  | cons attr schema ih =>
      rw [SelectionIterator.columnIndexFrom] at ok
      rw [firstColumn_cons]
      by_cases found : attr.name = name
      · rw [if_pos found] at ok
        cases ok
        exact ⟨0, if_pos found, rfl⟩
      · rw [if_neg found] at ok
        obtain ⟨pos, isFirst, isIndex⟩ := ih ok
        refine ⟨pos + 1, ?_, by omega⟩
        rw [if_neg found, isFirst]
        rfl

theorem columnIndex_ok {name : Bytes} {index : Nat}
    (ok : SelectionIterator.columnIndex schema name = .ok index) :
    firstColumn schema name = some index := by
  obtain ⟨pos, isFirst, isIndex⟩ := columnIndexFrom_ok ok
  rw [isFirst, isIndex, Nat.zero_add]

/-- **The optimizer and the selection resolve names alike**, up to the text of the failure. -/
theorem selectedIndex_eq (name tableName : Bytes) (start : Nat) (schema : Schema) :
    Optimizer.selectedIndex name tableName start schema
      = (SelectionIterator.columnIndexFrom name start schema).mapError
          fun _ => .columnMissing name tableName := by
  induction schema generalizing start with
  | nil => rfl
  | cons attr schema ih =>
      rw [Optimizer.selectedIndex, SelectionIterator.columnIndexFrom]
      by_cases found : attr.name = name
      · rw [if_pos found, if_pos found]
        rfl
      · rw [if_neg found, if_neg found]
        exact ih (start + 1)

theorem selectedIndices_ok {tableName : Bytes} {names : List Bytes} {fields : List Nat}
    (ok : Optimizer.selectedIndices schema tableName names = .ok fields) :
    List.Forall₂ (fun name field => firstColumn schema name = some field) names fields := by
  induction names generalizing fields with
  | nil =>
      cases ok
      exact .nil
  | cons name names ih =>
      obtain ⟨index, isIndex, rest⟩ := of_bind_ok ok
      obtain ⟨indices, isIndices, done⟩ := of_bind_ok rest
      cases done
      rw [selectedIndex_eq] at isIndex
      exact .cons (columnIndex_ok (of_mapError_ok isIndex)) (ih isIndices)

/-- The executor takes the attribute of the same column into the schema of the result. -/
theorem resultAttribute_eq {name : Bytes} {pos : Nat} (found : firstColumn schema name = some pos)
    {attr : RelationAttribute} (isAttr : schema[pos]? = some attr) :
    Executor.resultAttribute name schema = [attr] := by
  induction schema generalizing pos with
  | nil => cases isAttr
  | cons first schema ih =>
      rw [firstColumn_cons] at found
      rw [Executor.resultAttribute]
      by_cases same : first.name = name
      · rw [if_pos same] at found ⊢
        cases found
        cases isAttr
        rfl
      · rw [if_neg same] at found ⊢
        obtain ⟨before, isBefore, rfl⟩ := Option.map_eq_some_iff.mp found
        exact ih isBefore isAttr

/-! ### Conditions -/

theorem columnType_ok {name : Bytes} {type : TypeId}
    (ok : SelectionIterator.columnType schema name = .ok type) :
    typeOfColumn schema name = some type := by
  obtain ⟨index, isIndex, rest⟩ := of_bind_ok ok
  rw [typeOfColumn, columnIndex_ok isIndex, Option.bind_some]
  cases isAttr : schema[index]? with
  | none =>
      rw [isAttr] at rest
      cases rest
  | some attr =>
      rw [isAttr] at rest
      cases rest
      rfl

theorem comparisonType_ok {left right : Operand} {type : TypeId}
    (ok : SelectionIterator.comparisonType schema left right = .ok type) :
    literalType schema left right = some type := by
  cases left with
  | column name => exact columnType_ok ok
  | literal text =>
      cases right with
      | column name => exact columnType_ok ok
      | literal text' =>
          cases ok
          rfl

theorem resolveOperand_ok (matching : Matches schema values) {type : TypeId} {operand : Operand}
    {value : Value} (ok : SelectionIterator.resolveOperand parameters schema type
      (rowCode.encodeAll values) operand = .ok value) :
    operandValue parameters schema values type operand = some value := by
  cases operand with
  | column name =>
      obtain ⟨index, isIndex, rest⟩ := of_bind_ok ok
      have found := columnIndex_ok isIndex
      have inside : index < values.length := matching.length_eq ▸ firstColumn_lt found
      have read := of_mapError_ok rest
      rw [(encodes_read matching inside).2.2, Except.ok.injEq] at read
      rw [operandValue, valueOf, found, Option.bind_some, List.getElem?_eq_getElem inside, read]
  | literal text =>
      rw [SelectionIterator.resolveOperand] at ok
      rw [operandValue]
      cases parsed : parameters.valueFromString type text with
      | none =>
          rw [parsed] at ok
          cases ok
      | some value' =>
          rw [parsed] at ok
          cases ok
          rfl

/-- **The selection evaluates its condition to its truth.** -/
theorem evaluateCondition_ok (matching : Matches schema values) {condition : Condition} {truth : Bool}
    (ok : SelectionIterator.evaluateCondition parameters schema (rowCode.encodeAll values) condition
      = .ok truth) : satisfies parameters schema condition values = truth := by
  induction condition generalizing truth with
  | comparison left op right =>
      obtain ⟨type, isType, rest⟩ := of_bind_ok ok
      obtain ⟨leftValue, isLeft, rest⟩ := of_bind_ok rest
      obtain ⟨rightValue, isRight, compared⟩ := of_bind_ok rest
      rw [SelectionIterator.compareValues] at compared
      by_cases sameType : leftValue.type = rightValue.type
      · rw [if_pos sameType, Except.ok.injEq] at compared
        rw [satisfies, comparison, comparisonType_ok isType]
        simp only [Option.bind_eq_bind, Option.bind_some, resolveOperand_ok matching isLeft,
          resolveOperand_ok matching isRight, Option.pure_def, Option.getD_some, compared]
      · rw [if_neg sameType] at compared
        cases compared
  | logical left op right ihLeft ihRight =>
      obtain ⟨leftTruth, isLeft, rest⟩ := of_bind_ok ok
      have leftTrue := ihLeft isLeft
      cases op with
      | and =>
          rw [satisfies, leftTrue]
          cases leftTruth with
          | false =>
              cases rest
              rfl
          | true =>
              obtain ⟨rightTruth, isRight, done⟩ := of_bind_ok rest
              cases done
              rw [ihRight isRight]
              rfl
      | or =>
          rw [satisfies, leftTrue]
          cases leftTruth with
          | true =>
              cases rest
              rfl
          | false =>
              obtain ⟨rightTruth, isRight, done⟩ := of_bind_ok rest
              cases done
              rw [ihRight isRight]
              rfl

/-! ### The rows of an iterator -/

/-- **A scan gives its rows.** -/
theorem collect_fileScan (fuel : Nat) (rows : List Bytes) (enough : rows.length ≤ fuel) :
    Executor.collect parameters fuel (RowIterator.loadFileScan rows) = .ok rows := by
  induction rows generalizing fuel with
  | nil => cases fuel <;> rfl
  | cons row rows ih =>
      cases fuel with
      | zero => exact absurd enough (Nat.not_succ_le_zero _)
      | succ fuel =>
          have rest := ih fuel (Nat.le_of_succ_le_succ enough)
          have moved : RowIterator.next parameters (RowIterator.loadFileScan (row :: rows))
              = .ok (RowIterator.loadFileScan rows) := rfl
          show (do return row :: (← Executor.collect parameters fuel
            (← RowIterator.next parameters (RowIterator.loadFileScan (row :: rows))))) = _
          rw [moved, bind_of_ok rfl, bind_of_ok rest]
          rfl

/-- `find_next_match` stops at the first row that satisfies the condition, and passes no other. -/
theorem findNextMatch_ok {condition : Condition} {records : List (List Value)} {rest : List Bytes}
    (encoded : ∀ record ∈ records, Matches schema record)
    (ok : SelectionIterator.findNextMatch parameters schema condition
      (records.map rowCode.encodeAll) = .ok rest) :
    (rest = [] ∧ records.filter (satisfies parameters schema condition) = []) ∨
    ∃ (record : List Value) (later : List (List Value)),
      rest = rowCode.encodeAll record :: later.map rowCode.encodeAll ∧
      (∀ other ∈ later, Matches schema other) ∧
      records.filter (satisfies parameters schema condition)
        = record :: later.filter (satisfies parameters schema condition) := by
  induction records with
  | nil =>
      cases ok
      exact .inl ⟨rfl, rfl⟩
  | cons record records ih =>
      have later : ∀ other ∈ records, Matches schema other :=
        fun other isLater => encoded other (List.mem_cons_of_mem record isLater)
      obtain ⟨truth, evaluated, continued⟩ := of_bind_ok ok
      have isTrue := evaluateCondition_ok (encoded record List.mem_cons_self) evaluated
      cases truth with
      | true =>
          cases continued
          exact .inr ⟨record, records, rfl, later, List.filter_cons_of_pos isTrue⟩
      | false =>
          rw [List.filter_cons_of_neg (by rw [isTrue]; exact Bool.false_ne_true)]
          exact ih later continued

theorem findNextMatch_length {condition : Condition} {rows rest : List Bytes}
    (ok : SelectionIterator.findNextMatch parameters schema condition rows = .ok rest) :
    rest.length ≤ rows.length := by
  induction rows with
  | nil =>
      cases ok
      exact Nat.le_refl _
  | cons row rows ih =>
      obtain ⟨truth, _, continued⟩ := of_bind_ok ok
      cases truth with
      | true =>
          cases continued
          exact Nat.le_refl _
      | false => exact Nat.le_succ_of_le (ih continued)

/-- **A selection gives the rows that satisfy its condition.** -/
theorem collect_selection {condition : Condition} {fuel : Nat} {records : List (List Value)}
    {iterator : RowIterator} {rows : List Bytes}
    (encoded : ∀ record ∈ records, Matches schema record)
    (loaded : RowIterator.loadSelection parameters schema condition
      (records.map rowCode.encodeAll) = .ok iterator) (enough : iterator.rowsLeft ≤ fuel)
    (ok : Executor.collect parameters fuel iterator = .ok rows) :
    rows = (records.filter (satisfies parameters schema condition)).map rowCode.encodeAll := by
  induction fuel generalizing records iterator rows with
  | zero =>
      obtain ⟨rest, found, isIterator⟩ := of_bind_ok loaded
      cases isIterator
      cases ok
      obtain ⟨_, none⟩ | ⟨record, later, isRest, _⟩ := findNextMatch_ok encoded found
      · rw [none]
        rfl
      · rw [isRest] at enough
        exact absurd enough (Nat.not_succ_le_zero _)
  | succ fuel ih =>
      obtain ⟨rest, found, isIterator⟩ := of_bind_ok loaded
      cases isIterator
      obtain ⟨isRest, none⟩ | ⟨record, later, isRest, others, matched⟩ :=
        findNextMatch_ok encoded found
      · subst isRest
        cases ok
        rw [none]
        rfl
      · subst isRest
        obtain ⟨moved, advanced, continued⟩ := of_bind_ok ok
        obtain ⟨tail, collected, done⟩ := of_bind_ok continued
        cases done
        have fewer : moved.rowsLeft ≤ fuel := by
          obtain ⟨final, search, isMoved⟩ := of_bind_ok advanced
          cases isMoved
          have bounded := findNextMatch_length search
          have enough : (later.map rowCode.encodeAll).length + 1 ≤ fuel + 1 := enough
          exact le_trans bounded (Nat.le_of_succ_le_succ enough)
        rw [matched, List.map_cons, ih others advanced fewer collected]

theorem rowsLeft_loadProjection {fields : List Nat} {input iterator : RowIterator}
    (loaded : RowIterator.loadProjection schema fields input = .ok iterator) :
    iterator.rowsLeft = input.rowsLeft := by
  rw [RowIterator.loadProjection] at loaded
  cases isCurrent : input.current with
  | none =>
      rw [isCurrent] at loaded
      cases loaded
      rfl
  | some row =>
      rw [isCurrent] at loaded
      obtain ⟨projected, _, isIterator⟩ := of_bind_ok loaded
      cases isIterator
      rfl

/-- **A projection gives the projections of the rows of its input.** -/
theorem collect_projection {fields : List Nat} {fuel : Nat} {input iterator : RowIterator}
    {rows : List Bytes} (loaded : RowIterator.loadProjection schema fields input = .ok iterator)
    (ok : Executor.collect parameters fuel iterator = .ok rows) :
    ∃ inputRows, Executor.collect parameters fuel input = .ok inputRows ∧
      List.Forall₂ (fun row projected => RowIterator.project schema fields row = .ok projected)
        inputRows rows := by
  induction fuel generalizing input iterator rows with
  | zero =>
      cases ok
      exact ⟨[], rfl, .nil⟩
  | succ fuel ih =>
      rw [RowIterator.loadProjection] at loaded
      rw [Executor.collect]
      cases isCurrent : input.current with
      | none =>
          rw [isCurrent] at loaded
          cases loaded
          cases ok
          exact ⟨[], rfl, .nil⟩
      | some row =>
          rw [isCurrent] at loaded
          obtain ⟨projected, isProjected, isIterator⟩ := of_bind_ok loaded
          cases isIterator
          obtain ⟨moved, advanced, continued⟩ := of_bind_ok ok
          obtain ⟨tail, collected, done⟩ := of_bind_ok continued
          cases done
          obtain ⟨input', movedInput, loaded'⟩ := of_bind_ok advanced
          obtain ⟨inputRows, inputCollected, projections⟩ := ih loaded' collected
          refine ⟨row :: inputRows, ?_, .cons isProjected projections⟩
          show (do return row :: (← Executor.collect parameters fuel
            (← RowIterator.next parameters input))) = _
          rw [movedInput, bind_of_ok rfl, bind_of_ok inputCollected]
          rfl

/-! ### Projected rows -/

/-- The column that a name stands for has a value, of its type, in every row. -/
theorem valueOf_firstColumn (matching : Matches schema values) {name : Bytes} {field : Nat}
    (found : firstColumn schema name = some field) :
    ∃ (attr : RelationAttribute) (inside : field < values.length),
      Executor.resultAttribute name schema = [attr] ∧ valueOf schema values name = some values[field] ∧
        typeOf values[field] = attr.type ∧ values[field].Storable := by
  have column := firstColumn_lt found
  have inside : field < values.length := matching.length_eq ▸ column
  obtain ⟨isType, storable⟩ := matching.get column inside
  refine ⟨schema[field], inside, resultAttribute_eq found (List.getElem?_eq_getElem column), ?_,
    isType, storable⟩
  rw [valueOf, found, Option.bind_some, List.getElem?_eq_getElem inside]

/-- **The copied fields are the row of the chosen values**, under the schema of the result. -/
theorem copyFields_encode (matching : Matches schema values) {names : List Bytes} {fields : List Nat}
    (resolved : List.Forall₂ (fun name field => firstColumn schema name = some field) names fields) :
    ∃ picked, names.mapM (valueOf schema values) = some picked ∧
      Matches (names.flatMap fun name => Executor.resultAttribute name schema) picked ∧
      RowIterator.copyFields (rowCode.encodeAll values) schema fields
        = .ok (rowCode.encodeAll picked) := by
  induction resolved with
  | nil => exact ⟨[], rfl, .nil, rfl⟩
  | @cons name field names fields found _ ih =>
      obtain ⟨picked, isPicked, later, copied⟩ := ih
      obtain ⟨attr, inside, isAttr, isValue, isType, storable⟩ := valueOf_firstColumn matching found
      obtain ⟨offset, size, _⟩ := encodes_read matching inside
      have segment : ((rowCode.encodeAll values).drop
          (rowCode.encodeAll (values.take field)).length).take (rowCode.encode values[field]).length
            = rowCode.encode values[field] := by
        rw [SelfDelimiting.drop_encodeAll rowCode values inside, List.take_left]
      refine ⟨values[field] :: picked, ?_, ?_, ?_⟩
      · rw [List.mapM_cons, isValue, isPicked]
        rfl
      · rw [List.flatMap_cons, isAttr]
        exact .cons ⟨isType, storable⟩ later
      · rw [RowIterator.copyFields, offset, size, copied]
        exact congrArg (fun bytes => Except.ok (bytes ++ rowCode.encodeAll picked)) segment

theorem project_encode (matching : Matches schema values) {names : List Bytes} {fields : List Nat}
    (resolved : List.Forall₂ (fun name field => firstColumn schema name = some field) names fields)
    {projected : Bytes} (ok : RowIterator.project schema fields (rowCode.encodeAll values)
      = .ok projected) :
    ∃ picked, names.mapM (valueOf schema values) = some picked ∧
      Decodes (names.flatMap fun name => Executor.resultAttribute name schema) projected picked := by
  obtain ⟨_, _, copied⟩ := of_bind_ok ok
  obtain ⟨picked, isPicked, matched, encoded⟩ := copyFields_encode matching resolved
  rw [encoded, Except.ok.injEq] at copied
  exact ⟨picked, isPicked, copied ▸ decodes_encodeAll matched⟩

/-! ### The whole statement -/

/-- Rows that were selected decode to their values. -/
theorem decodes_all {records : List (List Value)}
    (encoded : ∀ record ∈ records, Matches schema record) :
    List.Forall₂ (Decodes schema) (records.map rowCode.encodeAll) records := by
  rw [List.forall₂_map_left_iff]
  exact List.forall₂_same.mpr fun record isRecord => decodes_encodeAll (encoded record isRecord)

/-- Projections of rows decode to the chosen values. -/
theorem decodes_projected {names : List Bytes} {fields : List Nat} {records : List (List Value)}
    {rows : List Bytes} (encoded : ∀ record ∈ records, Matches schema record)
    (resolved : List.Forall₂ (fun name field => firstColumn schema name = some field) names fields)
    (projections : List.Forall₂
      (fun row projected => RowIterator.project schema fields row = .ok projected)
      (records.map rowCode.encodeAll) rows) :
    ∃ decoded, records.map (fun record => names.mapM (valueOf schema record)) = decoded.map some ∧
      List.Forall₂ (Decodes (names.flatMap fun name => Executor.resultAttribute name schema))
        rows decoded := by
  induction records generalizing rows with
  | nil =>
      cases projections
      exact ⟨[], rfl, .nil⟩
  | cons record records ih =>
      cases projections with
      | @cons _ projected _ rows isProjected later =>
          obtain ⟨picked, isPicked, decodes⟩ :=
            project_encode (encoded record List.mem_cons_self) resolved isProjected
          obtain ⟨decoded, isDecoded, allDecode⟩ :=
            ih (fun other isLater => encoded other (List.mem_cons_of_mem record isLater)) later
          refine ⟨picked :: decoded, ?_, .cons decodes allDecode⟩
          rw [List.map_cons, List.map_cons, isPicked, isDecoded]

/-- The iterator that the optimizer puts below a projection. -/
def inputIterator (parameters : Parameters) (schema : Schema) (stmt : SelectStmt)
    (rows : List Bytes) : Except SelectFailure RowIterator :=
  match stmt.whereClause with
  | none => .ok (RowIterator.loadFileScan rows)
  | some condition => RowIterator.loadSelection parameters schema condition rows

theorem getExecutionIterator_ok {tables : Tables} {stmt : SelectStmt} {rows : List Bytes}
    {iterator : RowIterator} (scanned : tables.getTable stmt.tableName = some (schema, rows))
    (ok : Optimizer.getExecutionIterator parameters tables stmt = .ok iterator) :
    ∃ input, inputIterator parameters schema stmt rows = .ok input ∧
      (if stmt.selectAll then .ok input
        else Optimizer.selectedIndices schema stmt.tableName stmt.columns >>= fun fields =>
          RowIterator.loadProjection schema fields input) = Except.ok iterator := by
  rw [Optimizer.getExecutionIterator] at ok
  by_cases absent : tables.tableExists stmt.tableName = false
  · rw [if_pos absent] at ok
    cases ok
  · rw [if_neg absent, scanned] at ok
    unfold inputIterator
    cases isWhere : stmt.whereClause with
    | none =>
        simp only [isWhere] at ok
        exact ⟨_, rfl, ok⟩
    | some condition =>
        simp only [isWhere] at ok
        exact of_bind_ok ok

/-- The iterator below the projection gives the rows that the statement selects. -/
theorem collect_input {stmt : SelectStmt} {fuel : Nat} {records : List (List Value)}
    {input : RowIterator} {rows : List Bytes}
    (encoded : ∀ record ∈ records, Matches schema record)
    (built : inputIterator parameters schema stmt (records.map rowCode.encodeAll) = .ok input)
    (enough : input.rowsLeft ≤ fuel)
    (ok : Executor.collect parameters fuel input = .ok rows) :
    rows = (records.filter (selected parameters schema stmt)).map rowCode.encodeAll := by
  rw [inputIterator] at built
  cases isWhere : stmt.whereClause with
  | none =>
      rw [isWhere] at built
      cases built
      rw [collect_fileScan fuel _ enough, Except.ok.injEq] at ok
      have all : ∀ record ∈ records, selected parameters schema stmt record = true := by
        intro record _
        rw [selected, isWhere]
      rw [← ok, List.filter_eq_self.mpr all]
  | some condition =>
      rw [isWhere] at built
      have same : selected parameters schema stmt = satisfies parameters schema condition := by
        funext record
        rw [selected, isWhere]
      rw [same]
      exact collect_selection encoded built enough ok

/-- **`SELECT` computes a projection of a selection.** Whenever the execution of a statement over a
table of encoded rows reports success, the rows of the result decode under its schema to the values
of the selected columns in the rows that satisfy the condition, in scan order; `SELECT *` keeps the
schema of the table. -/
theorem select_projects (parameters : Parameters) (tables : Tables) (stmt : SelectStmt)
    (schema : Schema) (records : List (List Value)) (result : ExecutionResult)
    (scanned : tables.getTable stmt.tableName = some (schema, records.map rowCode.encodeAll))
    (encoded : ∀ record ∈ records, Matches schema record)
    (run : Executor.executeSelect parameters tables stmt = .ok result)
    (success : result.success = true) :
    ∃ rows resultSchema decoded, result.rows = some rows ∧ result.schema = some resultSchema ∧
      List.Forall₂ (Decodes resultSchema) rows decoded ∧
      (records.filter (selected parameters schema stmt)).map (chosen schema stmt)
        = decoded.map some ∧
      (stmt.selectAll = true → resultSchema = schema) := by
  have tried : Executor.trySelect parameters tables stmt = .ok result := by
    rw [Executor.executeSelect] at run
    split at run
    · next found =>
        cases run
        exact found
    · cases run
    · cases run
      cases success
  obtain ⟨iterator, optimized, rest⟩ := of_bind_ok tried
  obtain ⟨rows, collected, finished⟩ := of_bind_ok rest
  rw [scanned] at finished
  cases finished
  obtain ⟨input, built, wrapped⟩ := getExecutionIterator_ok scanned optimized
  have matching : ∀ record ∈ records.filter (selected parameters schema stmt),
      Matches schema record :=
    fun record isSelected => encoded record (List.mem_of_mem_filter isSelected)
  by_cases all : stmt.selectAll = true
  · rw [if_pos all] at wrapped
    cases wrapped
    have isRows := collect_input encoded built (Nat.le_refl _) collected
    have keeps : chosen schema stmt = some := by
      funext record
      rw [chosen, if_pos all]
    refine ⟨rows, _, records.filter (selected parameters schema stmt), rfl, rfl, ?_, ?_, ?_⟩
    · rw [Executor.resultSchema, if_pos all, isRows]
      exact decodes_all matching
    · rw [keeps]
    · intro _
      rw [Executor.resultSchema, if_pos all]
  · rw [if_neg all] at wrapped
    obtain ⟨fields, resolved, loaded⟩ := of_bind_ok wrapped
    obtain ⟨inputRows, inputCollected, projections⟩ := collect_projection loaded collected
    have sameRows : input.rowsLeft = iterator.rowsLeft := (rowsLeft_loadProjection loaded).symm
    rw [collect_input encoded built (Nat.le_of_eq sameRows) inputCollected] at projections
    obtain ⟨decoded, isDecoded, decodes⟩ :=
      decodes_projected matching (selectedIndices_ok resolved) projections
    have picks : chosen schema stmt = fun record => stmt.columns.mapM (valueOf schema record) := by
      funext record
      rw [chosen, if_neg all]
    refine ⟨rows, _, decoded, rfl, rfl, ?_, ?_, fun isAll => absurd isAll all⟩
    · rw [Executor.resultSchema, if_neg all]
      exact decodes
    · rw [picks]
      exact isDecoded

/-- Numbers are one digit, and are compared for equality. -/
def digits : Parameters where
  valueFromString type text :=
    if type = 2 then text.head?.map fun digit => .u32 (digit.toUInt32 - 48) else none
  compare op left right := if op = .eq then decide (left = right) else decide (left ≠ right)

def sevens : Tables where
  tableExists _ := true
  getTable _ := some ([⟨[97], 2⟩, ⟨[98], 2⟩, ⟨[97], 2⟩],
    [[Value.u32 7, .u32 2, .u32 3], [.u32 5, .u32 2, .u32 7], [.u32 7, .u32 1, .u32 4]].map
      rowCode.encodeAll)

/-- `SELECT b, a, b FROM t WHERE a = '7' OR b = '1'`, of a table with two columns `a`. -/
def selectSevens : SelectStmt where
  tableName := [116]
  selectAll := false
  columns := [[98], [97], [98]]
  whereClause := some (.logical (.comparison (.column [97]) .eq (.literal [55])) .or
    (.comparison (.column [98]) .eq (.literal [49])))

theorem selectSevens_projects : ∃ result rows resultSchema decoded,
    Executor.executeSelect digits sevens selectSevens = .ok result ∧ result.rows = some rows ∧
    result.schema = some resultSchema ∧ List.Forall₂ (Decodes resultSchema) rows decoded ∧
      [some [Value.u32 2, .u32 7, .u32 2], some [.u32 1, .u32 7, .u32 1]] = decoded.map some := by
  obtain ⟨result, run, success⟩ : ∃ result,
      Executor.executeSelect digits sevens selectSevens = .ok result ∧ result.success = true :=
    ⟨_, rfl, rfl⟩
  have encoded (first second third : UInt32) : Matches [⟨[97], 2⟩, ⟨[98], 2⟩, ⟨[97], 2⟩]
      [.u32 first, .u32 second, .u32 third] :=
    .cons ⟨rfl, trivial⟩ (.cons ⟨rfl, trivial⟩ (.cons ⟨rfl, trivial⟩ .nil))
  obtain ⟨rows, resultSchema, decoded, isRows, isSchema, decodes, isDecoded, _⟩ :=
    select_projects digits sevens selectSevens [⟨[97], 2⟩, ⟨[98], 2⟩, ⟨[97], 2⟩]
      [[.u32 7, .u32 2, .u32 3], [.u32 5, .u32 2, .u32 7], [.u32 7, .u32 1, .u32 4]] result rfl
      (List.forall_mem_cons.mpr ⟨encoded _ _ _, List.forall_mem_cons.mpr ⟨encoded _ _ _,
        List.forall_mem_cons.mpr ⟨encoded _ _ _, List.forall_mem_nil _⟩⟩⟩) run success
  exact ⟨result, rows, resultSchema, decoded, run, isRows, isSchema, decodes, isDecoded⟩

end Yadb
