/-
**Legal `WHERE` clauses.**

The selection looks at a comparison when it evaluates it on a row: names are resolved, literals are
read and types are compared then, and a right operand that cannot matter is not looked at.

* `Legal`: every comparison of the condition has its columns, its literals and one type, at the
  schema.
* `evaluateCondition_legal`: a legal condition evaluates on every row of the schema.
* `Swapped`: the condition with the sides of some nodes swapped. A condition that is not legal has
  one that fails on every row (`swapped_fails`), as the comparison at fault comes first there.
* `DataIndependent`: neither the rows of the table nor the order of the sides decides whether the
  condition is rejected, nor the order what a `SELECT` returns.
* `dataIndependent_iff`: this is so for the legal conditions, and for tables that no row fits.
-/

import Yadb.Executor.SelectRefinement

namespace Yadb

open Foundation

variable {parameters : Parameters} {schema : Schema} {values : List Value}

/-! ### Legal conditions -/

/-- The type of the values of an operand. -/
def operandType (parameters : Parameters) (schema : Schema) (type : TypeId) :
    Operand → Option DataType
  | .column name => (typeOfColumn schema name).bind DataType.ofTypeId
  | .literal text => (parameters.valueFromString type text).map Value.type

/-- The columns exist, the literals are read, and both sides have one type. -/
def LegalComparison (parameters : Parameters) (schema : Schema) (left right : Operand) : Prop :=
  ∃ type, literalType schema left right = some type ∧ ∃ dataType,
    operandType parameters schema type left = some dataType ∧
    operandType parameters schema type right = some dataType

def Legal (parameters : Parameters) (schema : Schema) : Condition → Prop
  | .comparison left _ right => LegalComparison parameters schema left right
  | .logical left _ right => Legal parameters schema left ∧ Legal parameters schema right

/-- What makes a condition illegal. -/
def SelectFailure.OfCondition : SelectFailure → Prop
  | .unknownColumn _ | .badLiteral _ _ | .cannotCompare _ _ => True
  | .tableMissing _ | .tableUnavailable _ | .columnMissing _ _ | .unreadable _ => False

/-! ### One comparison -/

theorem columnIndexFrom_eq (name : Bytes) (start : Nat) (schema : Schema) :
    SelectionIterator.columnIndexFrom name start schema = match firstColumn schema name with
      | some pos => .ok (start + pos)
      | none => .error (.unknownColumn name) := by
  induction schema generalizing start with
  | nil => rfl
  | cons attr schema ih =>
      rw [SelectionIterator.columnIndexFrom, firstColumn_cons]
      by_cases found : attr.name = name
      · rw [if_pos found, if_pos found]
        rfl
      · rw [if_neg found, if_neg found, ih]
        cases firstColumn schema name with
        | none => rfl
        | some pos =>
            simp only [Option.map_some]
            rw [Nat.add_assoc, Nat.add_comm 1]

theorem columnIndex_eq (schema : Schema) (name : Bytes) :
    SelectionIterator.columnIndex schema name = match firstColumn schema name with
      | some pos => .ok pos
      | none => .error (.unknownColumn name) := by
  rw [SelectionIterator.columnIndex, columnIndexFrom_eq]
  cases firstColumn schema name with
  | none => rfl
  | some pos => simp only [Nat.zero_add]

/-- The type of a column, or the failure. -/
theorem columnType_cases (schema : Schema) (name : Bytes) :
    (∃ type, SelectionIterator.columnType schema name = .ok type ∧
        typeOfColumn schema name = some type) ∨
      (SelectionIterator.columnType schema name = .error (.unknownColumn name) ∧
        typeOfColumn schema name = none) := by
  rw [SelectionIterator.columnType, columnIndex_eq, typeOfColumn]
  cases found : firstColumn schema name with
  | none => exact Or.inr ⟨rfl, rfl⟩
  | some pos =>
      have inSchema := firstColumn_lt found
      have isAttr := List.getElem?_eq_getElem inSchema
      refine Or.inl ⟨schema[pos].type, ?_, ?_⟩
      · rw [bind_of_ok rfl, isAttr]
        rfl
      · rw [Option.bind_some, isAttr]
        rfl

/-- The type that the literals of a comparison take, or the failure. -/
theorem comparisonType_cases (schema : Schema) (left right : Operand) :
    (∃ type, SelectionIterator.comparisonType schema left right = .ok type ∧
        literalType schema left right = some type) ∨
      ∃ name, SelectionIterator.comparisonType schema left right = .error (.unknownColumn name) ∧
        literalType schema left right = none := by
  cases left with
  | column name => exact (columnType_cases schema name).imp_right fun failed => ⟨name, failed⟩
  | literal text =>
      cases right with
      | column name => exact (columnType_cases schema name).imp_right fun failed => ⟨name, failed⟩
      | literal text' => exact Or.inl ⟨_, rfl, rfl⟩

/-- The value in a column has the type of the column. -/
theorem operandType_column (matching : Matches schema values) {name : Bytes} {pos : Nat}
    (found : firstColumn schema name = some pos) (inside : pos < values.length) (type : TypeId) :
    operandType parameters schema type (.column name) = some values[pos].type := by
  have inSchema := firstColumn_lt found
  have ofType := (List.forall₂_iff_get.mp matching).2 pos inSchema inside
  have isType : typeOf values[pos] = schema[pos].type := ofType.1
  rw [operandType, typeOfColumn, found, Option.bind_some,
    List.getElem?_eq_getElem inSchema, Option.map_some, Option.bind_some, ← isType]
  exact DataType.ofTypeId_typeId _

/-- **An operand on a row of the schema** has a value of its type, or is at fault. -/
theorem resolveOperand_cases (matching : Matches schema values) (type : TypeId) (operand : Operand) :
    (∃ value, SelectionIterator.resolveOperand parameters schema type (rowCode.encodeAll values)
        operand = .ok value ∧ operandType parameters schema type operand = some value.type) ∨
      ∃ failure, SelectionIterator.resolveOperand parameters schema type (rowCode.encodeAll values)
        operand = .error failure ∧ failure.OfCondition ∧
        operandType parameters schema type operand = none := by
  cases operand with
  | column name =>
      rw [SelectionIterator.resolveOperand, columnIndex_eq]
      cases found : firstColumn schema name with
      | none =>
          refine Or.inr ⟨.unknownColumn name, rfl, trivial, ?_⟩
          rw [operandType, typeOfColumn, found]
          rfl
      | some pos =>
          have inside : pos < values.length := matching.length_eq ▸ firstColumn_lt found
          refine Or.inl ⟨values[pos], ?_, operandType_column matching found inside type⟩
          rw [bind_of_ok rfl, (encodes_read matching inside).2.2]
          rfl
  | literal text =>
      rw [SelectionIterator.resolveOperand, operandType]
      cases parameters.valueFromString type text with
      | none => exact Or.inr ⟨.badLiteral type text, rfl, trivial, rfl⟩
      | some value => exact Or.inl ⟨value, rfl, rfl⟩

/-- **A comparison on a row of the schema** evaluates exactly if it is legal. -/
theorem evaluateComparison_cases (matching : Matches schema values) (left : Operand)
    (op : ComparisonOp) (right : Operand) :
    (LegalComparison parameters schema left right ∧ ∃ truth,
        SelectionIterator.evaluateCondition parameters schema (rowCode.encodeAll values)
          (.comparison left op right) = .ok truth) ∨
      (¬ LegalComparison parameters schema left right ∧ ∃ failure,
        SelectionIterator.evaluateCondition parameters schema (rowCode.encodeAll values)
          (.comparison left op right) = .error failure ∧ failure.OfCondition) := by
  rw [SelectionIterator.evaluateCondition]
  rcases comparisonType_cases schema left right with ⟨type, run, isType⟩ | ⟨name, run, noType⟩
  · rw [bind_of_ok run]
    rcases resolveOperand_cases matching type left with
      ⟨leftValue, run, leftType⟩ | ⟨failure, run, atFault, noType⟩
    · rw [bind_of_ok run]
      rcases resolveOperand_cases matching type right with
        ⟨rightValue, run, rightType⟩ | ⟨failure, run, atFault, noType⟩
      · rw [bind_of_ok run, SelectionIterator.compareValues]
        by_cases same : leftValue.type = rightValue.type
        · rw [if_pos same]
          exact Or.inl ⟨⟨type, isType, _, leftType, same ▸ rightType⟩, _, rfl⟩
        · rw [if_neg same]
          refine Or.inr ⟨?_, _, rfl, trivial⟩
          rintro ⟨type', isType', dataType, isLeft, isRight⟩
          rw [isType, Option.some.injEq] at isType'
          subst isType'
          rw [leftType, Option.some.injEq] at isLeft
          rw [rightType, Option.some.injEq] at isRight
          exact same (isLeft.trans isRight.symm)
      · rw [run]
        refine Or.inr ⟨?_, failure, rfl, atFault⟩
        rintro ⟨type', isType', dataType, _, isRight⟩
        rw [isType, Option.some.injEq] at isType'
        subst isType'
        cases noType.symm.trans isRight
    · rw [run]
      refine Or.inr ⟨?_, failure, rfl, atFault⟩
      rintro ⟨type', isType', dataType, isLeft, _⟩
      rw [isType, Option.some.injEq] at isType'
      subst isType'
      cases noType.symm.trans isLeft
  · rw [run]
    refine Or.inr ⟨?_, _, rfl, trivial⟩
    rintro ⟨type, isType, _⟩
    cases noType.symm.trans isType

/-! ### Conditions -/

/-- **A legal condition evaluates** on every row of the schema, to its truth. -/
theorem evaluateCondition_legal (matching : Matches schema values) {condition : Condition}
    (legal : Legal parameters schema condition) :
    SelectionIterator.evaluateCondition parameters schema (rowCode.encodeAll values) condition
      = .ok (satisfies parameters schema condition values) := by
  suffices evaluates : ∃ truth, SelectionIterator.evaluateCondition parameters schema
      (rowCode.encodeAll values) condition = .ok truth by
    obtain ⟨truth, run⟩ := evaluates
    rw [run, evaluateCondition_ok matching run]
  induction condition with
  | comparison left op right =>
      rcases evaluateComparison_cases matching left op right with ⟨_, evaluates⟩ | ⟨illegal, _⟩
      · exact evaluates
      · exact absurd legal illegal
  | logical left op right ihLeft ihRight =>
      obtain ⟨leftTruth, leftRun⟩ := ihLeft legal.1
      obtain ⟨rightTruth, rightRun⟩ := ihRight legal.2
      rw [SelectionIterator.evaluateCondition, bind_of_ok leftRun]
      by_cases stopsAnd : op = .and ∧ leftTruth = false
      · exact ⟨false, if_pos stopsAnd⟩
      · rw [if_neg stopsAnd]
        by_cases stopsOr : op = .or ∧ leftTruth = true
        · exact ⟨true, if_pos stopsOr⟩
        · rw [if_neg stopsOr, bind_of_ok rightRun]
          exact ⟨_, rfl⟩

/-- On a row of the schema only the condition can be at fault. -/
theorem evaluateCondition_fails (matching : Matches schema values) {condition : Condition}
    {failure : SelectFailure} (run : SelectionIterator.evaluateCondition parameters schema
      (rowCode.encodeAll values) condition = .error failure) : failure.OfCondition := by
  induction condition generalizing failure with
  | comparison left op right =>
      rcases (evaluateComparison_cases matching left op right :
          (LegalComparison parameters schema left right ∧ _) ∨ _) with
        ⟨_, truth, evaluates⟩ | ⟨_, failure', failed, atFault⟩
      · cases evaluates.symm.trans run
      · cases failed.symm.trans run
        exact atFault
  | logical left op right ihLeft ihRight =>
      rw [SelectionIterator.evaluateCondition] at run
      cases leftRun : SelectionIterator.evaluateCondition parameters schema
          (rowCode.encodeAll values) left with
      | error failure' =>
          rw [leftRun] at run
          cases run
          exact ihLeft leftRun
      | ok leftTruth =>
          rw [bind_of_ok leftRun] at run
          by_cases stopsAnd : op = .and ∧ leftTruth = false
          · rw [if_pos stopsAnd] at run
            cases run
          · rw [if_neg stopsAnd] at run
            by_cases stopsOr : op = .or ∧ leftTruth = true
            · rw [if_pos stopsOr] at run
              cases run
            · rw [if_neg stopsOr] at run
              cases rightRun : SelectionIterator.evaluateCondition parameters schema
                  (rowCode.encodeAll values) right with
              | error failure' =>
                  rw [rightRun] at run
                  cases run
                  exact ihRight rightRun
              | ok rightTruth =>
                  rw [bind_of_ok rightRun] at run
                  cases run

/-- The condition with the two sides of any of its nodes swapped. -/
inductive Swapped : Condition → Condition → Prop
  | comparison (left : Operand) (op : ComparisonOp) (right : Operand) :
      Swapped (.comparison left op right) (.comparison left op right)
  | keep {left left' right right' : Condition} (op : LogicalOp) : Swapped left left' →
      Swapped right right' → Swapped (.logical left op right) (.logical left' op right')
  | swap {left left' right right' : Condition} (op : LogicalOp) : Swapped left left' →
      Swapped right right' → Swapped (.logical left op right) (.logical right' op left')

theorem Swapped.refl (condition : Condition) : Swapped condition condition := by
  induction condition with
  | comparison left op right => exact .comparison left op right
  | logical left op right ihLeft ihRight => exact .keep op ihLeft ihRight

theorem legal_swapped {condition condition' : Condition} (swapped : Swapped condition condition') :
    Legal parameters schema condition' ↔ Legal parameters schema condition := by
  induction swapped with
  | comparison left op right => exact Iff.rfl
  | keep op _ _ ihLeft ihRight => exact and_congr ihLeft ihRight
  | swap op _ _ ihLeft ihRight => exact (and_congr ihRight ihLeft).trans and_comm

/-- Swapping keeps the truth. -/
theorem satisfies_swapped {condition condition' : Condition}
    (swapped : Swapped condition condition') :
    satisfies parameters schema condition' = satisfies parameters schema condition := by
  funext record
  induction swapped with
  | comparison left op right => rfl
  | keep op _ _ ihLeft ihRight => cases op <;> simp only [satisfies, ihLeft, ihRight]
  | swap op _ _ ihLeft ihRight =>
      cases op with
      | and => simp only [satisfies, ihLeft, ihRight, Bool.and_comm]
      | or => simp only [satisfies, ihLeft, ihRight, Bool.or_comm]

/-- **The comparison at fault comes first** when the right sides are swapped. -/
theorem swapped_fails {condition : Condition} (illegal : ¬ Legal parameters schema condition) :
    ∃ condition', Swapped condition condition' ∧ ∀ values, Matches schema values → ∃ failure,
      SelectionIterator.evaluateCondition parameters schema (rowCode.encodeAll values) condition'
        = .error failure := by
  induction condition with
  | comparison left op right =>
      refine ⟨_, .comparison left op right, fun values matching => ?_⟩
      rcases evaluateComparison_cases matching left op right with ⟨legal, _⟩ | ⟨_, failure, run, _⟩
      · exact absurd legal illegal
      · exact ⟨failure, run⟩
  | logical left op right ihLeft ihRight =>
      by_cases leftLegal : Legal parameters schema left
      · obtain ⟨right', swapped, fails⟩ := ihRight fun rightLegal => illegal ⟨leftLegal, rightLegal⟩
        refine ⟨.logical right' op left, .swap op (.refl left) swapped, fun values matching => ?_⟩
        obtain ⟨failure, run⟩ := fails values matching
        refine ⟨failure, ?_⟩
        rw [SelectionIterator.evaluateCondition, run]
        rfl
      · obtain ⟨left', swapped, fails⟩ := ihLeft leftLegal
        refine ⟨.logical left' op right, .keep op swapped (.refl right), fun values matching => ?_⟩
        obtain ⟨failure, run⟩ := fails values matching
        refine ⟨failure, ?_⟩
        rw [SelectionIterator.evaluateCondition, run]
        rfl

/-! ### The rows of a selection that evaluates -/

section Rows

variable {condition : Condition} {passes : Bytes → Bool}

/-- The condition evaluates on these rows. -/
def Decides (parameters : Parameters) (schema : Schema) (condition : Condition)
    (passes : Bytes → Bool) (rows : List Bytes) : Prop :=
  ∀ row ∈ rows,
    SelectionIterator.evaluateCondition parameters schema row condition = .ok (passes row)

theorem Decides.tail {row : Bytes} {rows : List Bytes}
    (decides : Decides parameters schema condition passes (row :: rows)) :
    Decides parameters schema condition passes rows :=
  fun other member => decides other (List.mem_cons_of_mem row member)

/-- The search ends at the end of the table, or at a row that passes. -/
theorem findNextMatch_decided {rows : List Bytes}
    (decides : Decides parameters schema condition passes rows) :
    (SelectionIterator.findNextMatch parameters schema condition rows = .ok [] ∧
        rows.filter passes = []) ∨
      ∃ row later, SelectionIterator.findNextMatch parameters schema condition rows
          = .ok (row :: later) ∧ rows.filter passes = row :: later.filter passes ∧
        Decides parameters schema condition passes later := by
  induction rows with
  | nil => exact Or.inl ⟨rfl, rfl⟩
  | cons row rows ih =>
      rw [SelectionIterator.findNextMatch, bind_of_ok (decides row List.mem_cons_self)]
      by_cases pass : passes row = true
      · rw [if_pos pass]
        exact Or.inr ⟨row, rows, rfl, List.filter_cons_of_pos pass, decides.tail⟩
      · rw [if_neg pass, List.filter_cons_of_neg pass]
        exact ih decides.tail

/-- **A selection is loaded** at its end, or at a row that passes, with fewer rows behind it. -/
theorem loadSelection_decided {rows : List Bytes}
    (decides : Decides parameters schema condition passes rows) :
    (RowIterator.loadSelection parameters schema condition rows
        = .ok (.selection [] schema condition none) ∧ rows.filter passes = []) ∨
      ∃ row later, RowIterator.loadSelection parameters schema condition rows
          = .ok (.selection (row :: later) schema condition (some row)) ∧
        rows.filter passes = row :: later.filter passes ∧
        Decides parameters schema condition passes later ∧ later.length < rows.length := by
  rw [RowIterator.loadSelection]
  rcases findNextMatch_decided decides with ⟨run, isEmpty⟩ | ⟨row, later, run, matched, ahead⟩
  · rw [bind_of_ok run]
    exact Or.inl ⟨rfl, isEmpty⟩
  · rw [bind_of_ok run]
    exact Or.inr ⟨row, later, rfl, matched, ahead, findNextMatch_length run⟩

theorem exists_loadSelection {rows : List Bytes}
    (decides : Decides parameters schema condition passes rows) :
    ∃ input, RowIterator.loadSelection parameters schema condition rows = .ok input := by
  rcases loadSelection_decided decides with ⟨run, _⟩ | ⟨_, _, run, _⟩
  · exact ⟨_, run⟩
  · exact ⟨_, run⟩

theorem rowsLeft_loadSelection {rows : List Bytes} {input : RowIterator}
    (loaded : RowIterator.loadSelection parameters schema condition rows = .ok input) :
    input.rowsLeft ≤ rows.length := by
  obtain ⟨rest, found, isInput⟩ := of_bind_ok loaded
  cases isInput
  exact findNextMatch_length found

/-- **The loop over a selection** gives the rows that pass. -/
theorem collect_decided {rows : List Bytes} {input : RowIterator} {fuel : Nat}
    (decides : Decides parameters schema condition passes rows)
    (loaded : RowIterator.loadSelection parameters schema condition rows = .ok input)
    (enough : input.rowsLeft ≤ fuel) :
    Executor.collect parameters fuel input = .ok (rows.filter passes) := by
  induction fuel generalizing rows input with
  | zero =>
      rcases loadSelection_decided decides with ⟨run, isEmpty⟩ | ⟨row, later, run, _, _, _⟩
      · rw [isEmpty]
        rfl
      · cases run.symm.trans loaded
        exact absurd enough (Nat.not_succ_le_zero _)
  | succ fuel ih =>
      rcases loadSelection_decided decides with
        ⟨run, isEmpty⟩ | ⟨row, later, run, matched, ahead, _⟩
      · cases run.symm.trans loaded
        rw [isEmpty]
        rfl
      · cases run.symm.trans loaded
        have enough : later.length + 1 ≤ fuel + 1 := enough
        obtain ⟨next, moved⟩ := exists_loadSelection ahead
        have rest := ih ahead moved
          ((rowsLeft_loadSelection moved).trans (Nat.le_of_succ_le_succ enough))
        have advanced : RowIterator.next parameters
            (.selection (row :: later) schema condition (some row)) = .ok next := moved
        show (do return row :: (← Executor.collect parameters fuel
          (← RowIterator.next parameters (.selection (row :: later) schema condition (some row))))) = _
        rw [advanced, bind_of_ok rfl, bind_of_ok rest, matched]
        rfl

/-- What a `SELECT` makes of the rows that pass. -/
def projectAll (schema : Schema) (fields : List Nat) : List Bytes → Except SelectFailure (List Bytes)
  | [] => .ok []
  | row :: rows => do
      let projected ← RowIterator.project schema fields row
      return projected :: (← projectAll schema fields rows)

/-- **The loop over a projection of a selection** projects the rows that pass. -/
theorem collect_projectAll {rows : List Bytes} {input : RowIterator} {fuel : Nat}
    (fields : List Nat) (decides : Decides parameters schema condition passes rows)
    (loaded : RowIterator.loadSelection parameters schema condition rows = .ok input)
    (enough : input.rowsLeft ≤ fuel) :
    (RowIterator.loadProjection schema fields input >>= Executor.collect parameters fuel)
      = projectAll schema fields (rows.filter passes) := by
  induction fuel generalizing rows input with
  | zero =>
      rcases loadSelection_decided decides with ⟨run, isEmpty⟩ | ⟨row, later, run, _, _, _⟩
      · cases run.symm.trans loaded
        rw [isEmpty]
        rfl
      · cases run.symm.trans loaded
        exact absurd enough (Nat.not_succ_le_zero _)
  | succ fuel ih =>
      rcases loadSelection_decided decides with
        ⟨run, isEmpty⟩ | ⟨row, later, run, matched, ahead, _⟩
      · cases run.symm.trans loaded
        rw [isEmpty]
        rfl
      · cases run.symm.trans loaded
        have enough : later.length + 1 ≤ fuel + 1 := enough
        obtain ⟨next, moved⟩ := exists_loadSelection ahead
        have rest := ih ahead moved
          ((rowsLeft_loadSelection moved).trans (Nat.le_of_succ_le_succ enough))
        rw [matched, projectAll, ← rest]
        cases projecting : RowIterator.project schema fields row with
        | error failure =>
            show (RowIterator.project schema fields row >>= _) >>= _ = _
            rw [projecting]
            rfl
        | ok projected =>
            have first : RowIterator.loadProjection schema fields
                (.selection (row :: later) schema condition (some row))
                = .ok (.projection (.selection (row :: later) schema condition (some row)) schema
                    fields (some projected)) := by
              show (RowIterator.project schema fields row >>= _) = _
              rw [projecting]
              rfl
            have advanced : RowIterator.next parameters
                (.projection (.selection (row :: later) schema condition (some row)) schema fields
                  (some projected)) = RowIterator.loadProjection schema fields next := by
              show (RowIterator.loadSelection parameters schema condition later >>= _) = _
              rw [moved]
              rfl
            rw [first, bind_of_ok rfl, bind_of_ok rfl]
            show (RowIterator.next parameters _ >>= fun iterator =>
              Executor.collect parameters fuel iterator >>= fun tail =>
                pure (projected :: tail)) = _
            rw [advanced]
            cases RowIterator.loadProjection schema fields next <;> rfl

end Rows

/-! ### What else can fail -/

theorem totalSize_fails {row : Bytes} {fields : List Nat} {failure : SelectFailure}
    (failed : RowIterator.totalSize row schema fields = .error failure) :
    ¬ failure.OfCondition := by
  induction fields generalizing failure with
  | nil => cases failed
  | cons field fields ih =>
      rcases of_bind_error failed with first | ⟨size, _, failed⟩
      · cases read : RowReader.getSize ⟨row, schema⟩ field <;> rw [read] at first <;> cases first
        exact id
      · rcases of_bind_error failed with rest | ⟨_, _, done⟩
        · exact ih rest
        · cases done

theorem copyFields_fails {row : Bytes} {fields : List Nat} {failure : SelectFailure}
    (failed : RowIterator.copyFields row schema fields = .error failure) :
    ¬ failure.OfCondition := by
  induction fields generalizing failure with
  | nil => cases failed
  | cons field fields ih =>
      rcases of_bind_error failed with first | ⟨offset, _, failed⟩
      · cases read : RowReader.getOffset ⟨row, schema⟩ field <;> rw [read] at first <;> cases first
        exact id
      · rcases of_bind_error failed with second | ⟨size, _, failed⟩
        · cases read : RowReader.getSize ⟨row, schema⟩ field <;> rw [read] at second <;> cases second
          exact id
        · rcases of_bind_error failed with rest | ⟨_, _, done⟩
          · exact ih rest
          · cases done

theorem projectAll_fails {fields : List Nat} {rows : List Bytes} {failure : SelectFailure}
    (failed : projectAll schema fields rows = .error failure) : ¬ failure.OfCondition := by
  induction rows generalizing failure with
  | nil => cases failed
  | cons row rows ih =>
      rcases of_bind_error failed with first | ⟨projected, _, failed⟩
      · rcases of_bind_error first with sized | ⟨size, _, copied⟩
        · exact totalSize_fails sized
        · exact copyFields_fails copied
      · rcases of_bind_error failed with rest | ⟨_, _, done⟩
        · exact ih rest
        · cases done

theorem selectedIndices_fails {tableName : Bytes} {names : List Bytes} {failure : SelectFailure}
    (failed : Optimizer.selectedIndices schema tableName names = .error failure) :
    ¬ failure.OfCondition := by
  induction names generalizing failure with
  | nil => cases failed
  | cons name names ih =>
      rcases of_bind_error failed with first | ⟨index, _, failed⟩
      · rw [selectedIndex_eq] at first
        cases found : SelectionIterator.columnIndexFrom name 0 schema <;> rw [found] at first <;>
          cases first
        exact id
      · rcases of_bind_error failed with rest | ⟨_, _, done⟩
        · exact ih rest
        · cases done

/-! ### A `SELECT` with the condition -/

/-- A table of this schema with these rows. -/
def tableOf (schema : Schema) (records : List (List Value)) : Tables :=
  ⟨fun _ => true, fun _ => some (schema, records.map rowCode.encodeAll)⟩

/-- The rows are rows of the schema. -/
def Fitting (schema : Schema) (records : List (List Value)) : Prop :=
  ∀ record ∈ records, Matches schema record

/-- The statement is rejected because of its condition. -/
def Rejected (parameters : Parameters) (tables : Tables) (stmt : SelectStmt) : Prop :=
  ∃ failure, Executor.trySelect parameters tables stmt = .error failure ∧ failure.OfCondition

/-- **Whether the condition is rejected does not depend on the rows**, and the order of its sides
decides nothing. -/
def DataIndependent (parameters : Parameters) (schema : Schema) (condition : Condition) : Prop :=
  ∀ stmt : SelectStmt, stmt.whereClause = some condition →
    (∀ records records', Fitting schema records → Fitting schema records' →
      (Rejected parameters (tableOf schema records) stmt ↔
        Rejected parameters (tableOf schema records') stmt)) ∧
    ∀ condition', Swapped condition condition' → ∀ records, Fitting schema records →
      Executor.executeSelect parameters (tableOf schema records)
          { stmt with whereClause := some condition' }
        = Executor.executeSelect parameters (tableOf schema records) stmt

/-- The result over the rows that pass. -/
def selectRows (schema : Schema) (stmt : SelectStmt) (rows : List Bytes) :
    Except SelectFailure (List Bytes) :=
  if stmt.selectAll then .ok rows
  else do
    let fields ← Optimizer.selectedIndices schema stmt.tableName stmt.columns
    projectAll schema fields rows

theorem selectRows_fails {stmt : SelectStmt} {rows : List Bytes} {failure : SelectFailure}
    (failed : selectRows schema stmt rows = .error failure) : ¬ failure.OfCondition := by
  rw [selectRows] at failed
  by_cases all : stmt.selectAll = true
  · rw [if_pos all] at failed
    cases failed
  · rw [if_neg all] at failed
    rcases of_bind_error failed with first | ⟨fields, _, failed⟩
    · exact selectedIndices_fails first
    · exact projectAll_fails failed

section Select

variable {condition : Condition} {passes : Bytes → Bool} {records : List (List Value)}
  {stmt : SelectStmt}

/-- **A `SELECT` whose condition evaluates** on the rows. -/
theorem trySelect_decided (isWhere : stmt.whereClause = some condition)
    (decides : Decides parameters schema condition passes (records.map rowCode.encodeAll)) :
    Executor.trySelect parameters (tableOf schema records) stmt
      = (selectRows schema stmt ((records.map rowCode.encodeAll).filter passes)).map fun rows =>
          ⟨true, some rows, some (Executor.resultSchema stmt schema)⟩ := by
  obtain ⟨input, loaded⟩ := exists_loadSelection decides
  have source : Optimizer.getExecutionIterator parameters (tableOf schema records) stmt
      = if stmt.selectAll then .ok input
        else Optimizer.selectedIndices schema stmt.tableName stmt.columns >>= fun fields =>
          RowIterator.loadProjection schema fields input := by
    rw [Optimizer.getExecutionIterator, if_neg fun absent => by cases absent]
    simp only [tableOf, isWhere]
    exact bind_of_ok loaded _
  rw [Executor.trySelect, source, selectRows]
  by_cases all : stmt.selectAll = true
  · rw [if_pos all, if_pos all, bind_of_ok rfl,
      bind_of_ok (collect_decided decides loaded (Nat.le_refl _))]
    rfl
  · rw [if_neg all, if_neg all]
    cases Optimizer.selectedIndices schema stmt.tableName stmt.columns with
    | error failure => rfl
    | ok fields =>
        have rest := collect_projectAll fields decides loaded (Nat.le_refl _)
        rw [bind_of_ok rfl, bind_of_ok rfl, ← rest]
        cases projected : RowIterator.loadProjection schema fields input with
        | error failure => rfl
        | ok iterator =>
            rw [bind_of_ok rfl, bind_of_ok rfl, rowsLeft_loadProjection projected]
            cases Executor.collect parameters input.rowsLeft iterator <;> rfl

/-- A condition that evaluates is not what a `SELECT` is rejected for. -/
theorem not_rejected (isWhere : stmt.whereClause = some condition)
    (decides : Decides parameters schema condition passes (records.map rowCode.encodeAll)) :
    ¬ Rejected parameters (tableOf schema records) stmt := by
  rintro ⟨failure, failed, atFault⟩
  rw [trySelect_decided isWhere decides] at failed
  cases selecting : selectRows schema stmt ((records.map rowCode.encodeAll).filter passes) with
  | ok rows =>
      rw [selecting] at failed
      cases failed
  | error failure' =>
      rw [selecting] at failed
      cases failed
      exact selectRows_fails selecting atFault

/-- The truth of a condition on the bytes of a row. -/
def truthOn (parameters : Parameters) (schema : Schema) (condition : Condition) (row : Bytes) : Bool :=
  (SelectionIterator.evaluateCondition parameters schema row condition).toOption.getD false

/-- **A legal condition evaluates on every row, and alike with its sides swapped.** -/
theorem decides_legal (fitting : Fitting schema records) (legal : Legal parameters schema condition)
    {condition' : Condition} (swapped : Swapped condition condition') :
    Decides parameters schema condition' (truthOn parameters schema condition)
      (records.map rowCode.encodeAll) := by
  intro row member
  obtain ⟨record, isRecord, rfl⟩ := List.mem_map.mp member
  have matching := fitting record isRecord
  rw [truthOn, evaluateCondition_legal matching legal,
    evaluateCondition_legal matching ((legal_swapped swapped).mpr legal), satisfies_swapped swapped]
  rfl

/-- **A condition that evaluates, with its sides swapped in every way,** to one truth for each
row. -/
theorem dataIndependent_of_decides
    (decides : ∀ records, Fitting schema records → ∃ passes, ∀ condition',
      Swapped condition condition' →
        Decides parameters schema condition' passes (records.map rowCode.encodeAll)) :
    DataIndependent parameters schema condition := by
  intro stmt isWhere
  constructor
  · intro records records' fitting fitting'
    obtain ⟨passes, decided⟩ := decides records fitting
    obtain ⟨passes', decided'⟩ := decides records' fitting'
    exact iff_of_false (not_rejected isWhere (decided condition (.refl condition)))
      (not_rejected isWhere (decided' condition (.refl condition)))
  · intro condition' swapped records fitting
    obtain ⟨passes, decided⟩ := decides records fitting
    have isWhere' : ({ stmt with whereClause := some condition' } : SelectStmt).whereClause
        = some condition' := rfl
    have same : Executor.trySelect parameters (tableOf schema records)
        { stmt with whereClause := some condition' }
        = Executor.trySelect parameters (tableOf schema records) stmt := by
      rw [trySelect_decided isWhere' (decided condition' swapped),
        trySelect_decided isWhere (decided condition (.refl condition))]
      rfl
    rw [Executor.executeSelect, same, Executor.executeSelect]

/-- `SELECT * FROM t` with the condition. -/
def selectWhere (condition : Condition) : SelectStmt := ⟨[116], true, [], some condition⟩

/-- A condition that fails on the only row. -/
theorem executeSelect_fails {failure : SelectFailure} (matching : Matches schema values)
    (run : SelectionIterator.evaluateCondition parameters schema (rowCode.encodeAll values) condition
      = .error failure) :
    Rejected parameters (tableOf schema [values]) (selectWhere condition) ∧
      Executor.executeSelect parameters (tableOf schema [values]) (selectWhere condition)
        = .ok ⟨false, none, none⟩ := by
  have atFault := evaluateCondition_fails matching run
  have failed : Executor.trySelect parameters (tableOf schema [values]) (selectWhere condition)
      = .error failure := by
    have search : RowIterator.loadSelection parameters schema condition [rowCode.encodeAll values]
        = .error failure := by
      rw [RowIterator.loadSelection, SelectionIterator.findNextMatch, run]
      rfl
    have source : Optimizer.getExecutionIterator parameters (tableOf schema [values])
        (selectWhere condition) = .error failure := by
      rw [Optimizer.getExecutionIterator, if_neg fun absent => by cases absent]
      show (RowIterator.loadSelection parameters schema condition [rowCode.encodeAll values] >>= _) = _
      rw [search]
      rfl
    rw [Executor.trySelect, source]
    rfl
  refine ⟨⟨failure, failed, atFault⟩, ?_⟩
  rw [Executor.executeSelect, failed]
  cases failure <;> first | rfl | exact atFault.elim

/-- **When a `WHERE` clause is legal for every content of the table or for none**, whatever the
order of its sides: exactly if every comparison of it is legal at the schema, or no row fits the
schema. -/
theorem dataIndependent_iff (parameters : Parameters) (schema : Schema) (condition : Condition) :
    DataIndependent parameters schema condition ↔
      Legal parameters schema condition ∨ ∀ values, ¬ Matches schema values := by
  constructor
  · intro independent
    by_contra neither
    obtain ⟨illegal, noRow⟩ := not_or.mp neither
    obtain ⟨values, matching⟩ := not_forall_not.mp noRow
    have fitting : Fitting schema [values] := List.forall_mem_singleton.mpr matching
    obtain ⟨sameRejection, sameResult⟩ := independent (selectWhere condition) rfl
    have accepted : ¬ Rejected parameters (tableOf schema [values]) (selectWhere condition) := by
      have onEmpty : Decides parameters schema condition (fun _ => true) [] :=
        List.forall_mem_nil _
      rw [sameRejection [values] [] fitting (List.forall_mem_nil _)]
      exact not_rejected rfl onEmpty
    obtain ⟨condition', swapped, fails⟩ := swapped_fails illegal
    obtain ⟨failure, failed⟩ := fails values matching
    have refused := (executeSelect_fails matching failed).2
    have alike : Executor.executeSelect parameters (tableOf schema [values]) (selectWhere condition)
        = .ok ⟨false, none, none⟩ :=
      (sameResult condition' swapped [values] fitting).symm.trans refused
    cases evaluated : SelectionIterator.evaluateCondition parameters schema
        (rowCode.encodeAll values) condition with
    | error failure => exact accepted (executeSelect_fails matching evaluated).1
    | ok truth =>
        have decides : Decides parameters schema condition (fun _ => truth)
            ([values].map rowCode.encodeAll) := List.forall_mem_singleton.mpr evaluated
        rw [Executor.executeSelect, trySelect_decided rfl decides] at alike
        cases alike
  · rintro (legal | noRow)
    · exact dataIndependent_of_decides fun records fitting =>
        ⟨_, fun condition' swapped => decides_legal fitting legal swapped⟩
    · refine dataIndependent_of_decides fun records fitting => ⟨fun _ => true, fun _ _ => ?_⟩
      cases records with
      | nil => exact List.forall_mem_nil _
      | cons record records => exact absurd (fitting record List.mem_cons_self) (noRow record)

end Select

/-- `b = '1'`, of a table with one column `a`. -/
def missingColumn : Condition := .comparison (.column [98]) .eq (.literal [49])

/-- **A column that the table does not have** is found missing once the table has a row. -/
theorem missingColumn_dependsOnData :
    ¬ Rejected digits (tableOf [⟨[97], 2⟩] []) (selectWhere missingColumn) ∧
      Rejected digits (tableOf [⟨[97], 2⟩] [[.u32 1]]) (selectWhere missingColumn) ∧
      ¬ DataIndependent digits [⟨[97], 2⟩] missingColumn := by
  have onEmpty : Decides digits [⟨[97], 2⟩] missingColumn (fun _ => true) [] := nofun
  have accepted : ¬ Rejected digits (tableOf [⟨[97], 2⟩] []) (selectWhere missingColumn) :=
    not_rejected rfl onEmpty
  have refused : Rejected digits (tableOf [⟨[97], 2⟩] [[.u32 1]]) (selectWhere missingColumn) :=
    ⟨.unknownColumn [98], rfl, trivial⟩
  refine ⟨accepted, refused, fun independent => accepted ?_⟩
  have fitting : Fitting [⟨[97], 2⟩] [[.u32 1]] :=
    List.forall_mem_singleton.mpr (.cons ⟨rfl, trivial⟩ .nil)
  exact ((independent (selectWhere missingColumn) rfl).1 [[.u32 1]] [] fitting nofun).mp refused

end Yadb
