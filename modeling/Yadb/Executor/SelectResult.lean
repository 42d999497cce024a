/-
**The result of a `SELECT`, whole.**

What the iterators of a `SELECT` give on rows of the schema is what the statement means on their
values (`select`): the same rows in the same order, under the same schema, or a refusal where there
is no meaning.

* `evaluateCondition_truth`: a condition on the bytes of a row has the truth that it has on its
  values, and fails where it has none.
* `filterRows`, `collect_selection_eq`: the loop over a selection filters the rows, and fails where
  the first of them does that cannot be judged.
* `executeSelect_select`: the whole statement.
-/

import Yadb.Executor.Database

namespace Yadb

open Foundation

variable {parameters : Parameters} {schema : Schema} {values : List Value} {stmt : SelectStmt}

/-! ### Conditions -/

/-- An operand reads as its value, or fails where it has none. -/
theorem resolveOperand_value (matching : Matches schema values) (type : TypeId) (operand : Operand) :
    (∃ value, SelectionIterator.resolveOperand parameters schema type (rowCode.encodeAll values)
        operand = .ok value ∧ operandValue parameters schema values type operand = some value) ∨
      ∃ failure, SelectionIterator.resolveOperand parameters schema type (rowCode.encodeAll values)
        operand = .error failure ∧ failure.OfCondition ∧
        operandValue parameters schema values type operand = none := by
  rcases (resolveOperand_cases matching type operand :
      (∃ value, SelectionIterator.resolveOperand parameters schema type _ operand = _ ∧ _) ∨ _) with
    ⟨value, run, _⟩ | ⟨failure, run, atFault, noType⟩
  · exact Or.inl ⟨value, run, resolveOperand_ok matching run⟩
  · refine Or.inr ⟨failure, run, atFault, ?_⟩
    cases operand with
    | literal text => exact Option.map_eq_none_iff.mp noType
    | column name =>
        cases found : firstColumn schema name with
        | none =>
            show (firstColumn schema name).bind _ = none
            rw [found]
            rfl
        | some pos =>
            have inside : pos < values.length := matching.length_eq ▸ firstColumn_lt found
            rw [operandType_column matching found inside] at noType
            cases noType

theorem evaluateComparison_truth (matching : Matches schema values) (left : Operand)
    (op : ComparisonOp) (right : Operand) :
    (∃ result, SelectionIterator.evaluateCondition parameters schema (rowCode.encodeAll values)
        (.comparison left op right) = .ok result ∧
        comparisonTruth parameters schema values left op right = some result) ∨
      ∃ failure, SelectionIterator.evaluateCondition parameters schema (rowCode.encodeAll values)
        (.comparison left op right) = .error failure ∧ failure.OfCondition ∧
        comparisonTruth parameters schema values left op right = none := by
  rw [SelectionIterator.evaluateCondition, comparisonTruth]
  rcases comparisonType_cases schema left right with ⟨type, run, isType⟩ | ⟨name, run, noType⟩
  · rw [bind_of_ok run, isType]
    rcases resolveOperand_value matching type left with
      ⟨leftValue, run, isLeft⟩ | ⟨failure, run, atFault, noValue⟩
    · rw [bind_of_ok run]
      rcases resolveOperand_value matching type right with
        ⟨rightValue, run, isRight⟩ | ⟨failure, run, atFault, noValue⟩
      · rw [bind_of_ok run, SelectionIterator.compareValues]
        simp only [Option.bind_eq_bind, Option.bind_some, isLeft, isRight]
        by_cases same : leftValue.type = rightValue.type
        · rw [if_pos same, if_pos same]
          exact Or.inl ⟨_, rfl, rfl⟩
        · rw [if_neg same, if_neg same]
          exact Or.inr ⟨_, rfl, trivial, rfl⟩
      · rw [run]
        simp only [Option.bind_eq_bind, Option.bind_some, isLeft, noValue]
        exact Or.inr ⟨failure, rfl, atFault, rfl⟩
    · rw [run]
      simp only [Option.bind_eq_bind, Option.bind_some, noValue]
      exact Or.inr ⟨failure, rfl, atFault, rfl⟩
  · rw [run, noType]
    exact Or.inr ⟨_, rfl, trivial, rfl⟩

/-- **A condition on the bytes of a row** has the truth that it has on the values, and fails where it
has none. -/
theorem evaluateCondition_truth (parameters : Parameters) (matching : Matches schema values)
    (condition : Condition) :
    (∃ result, SelectionIterator.evaluateCondition parameters schema (rowCode.encodeAll values)
        condition = .ok result ∧ truth parameters schema values condition = some result) ∨
      ∃ failure, SelectionIterator.evaluateCondition parameters schema (rowCode.encodeAll values)
        condition = .error failure ∧ failure.OfCondition ∧
        truth parameters schema values condition = none := by
  induction condition with
  | comparison left op right => exact evaluateComparison_truth matching left op right
  | logical left op right ihLeft ihRight =>
      rw [SelectionIterator.evaluateCondition, truth]
      rcases ihLeft with ⟨first, run, isFirst⟩ | ⟨failure, run, atFault, noTruth⟩
      · rw [bind_of_ok run, isFirst]
        simp only [Option.bind_eq_bind, Option.bind_some]
        -- a decided operator does not look at its right operand
        rcases ihRight with ⟨second, runRight, isSecond⟩ | ⟨failure, runRight, atFault, noTruth⟩
        · rw [runRight, isSecond]
          refine Or.inl ?_
          cases op <;> cases first <;> exact ⟨_, rfl, rfl⟩
        · rw [runRight, noTruth]
          cases op <;> cases first
          · exact Or.inl ⟨_, rfl, rfl⟩
          · exact Or.inr ⟨failure, rfl, atFault, rfl⟩
          · exact Or.inr ⟨failure, rfl, atFault, rfl⟩
          · exact Or.inl ⟨_, rfl, rfl⟩
      · rw [run, noTruth]
        exact Or.inr ⟨failure, rfl, atFault, rfl⟩

/-! ### The loop over a selection -/

section Rows

variable {condition : Condition}

/-- The rows that pass, or the failure of the first row that cannot be judged. -/
def filterRows (parameters : Parameters) (schema : Schema) (condition : Condition) :
    List Bytes → Except SelectFailure (List Bytes)
  | [] => .ok []
  | row :: rows => do
      let passes ← SelectionIterator.evaluateCondition parameters schema row condition
      let rest ← filterRows parameters schema condition rows
      return if passes then row :: rest else rest

/-- **The search for the next match** stops at the first row that passes, and fails at one before it
that cannot be judged. -/
theorem findNextMatch_filterRows (parameters : Parameters) (schema : Schema) (condition : Condition)
    (rows : List Bytes) :
    (∃ failure, SelectionIterator.findNextMatch parameters schema condition rows = .error failure ∧
        filterRows parameters schema condition rows = .error failure) ∨
      (SelectionIterator.findNextMatch parameters schema condition rows = .ok [] ∧
        filterRows parameters schema condition rows = .ok []) ∨
      ∃ row later, SelectionIterator.findNextMatch parameters schema condition rows
          = .ok (row :: later) ∧ (row :: later).Sublist rows ∧
        filterRows parameters schema condition rows
          = (filterRows parameters schema condition later).map fun rest => row :: rest := by
  induction rows with
  | nil => exact Or.inr (Or.inl ⟨rfl, rfl⟩)
  | cons row rows ih =>
      rw [SelectionIterator.findNextMatch, filterRows]
      cases run : SelectionIterator.evaluateCondition parameters schema row condition with
      | error failure => exact Or.inl ⟨failure, rfl, rfl⟩
      | ok passes =>
          rw [bind_of_ok rfl, bind_of_ok rfl]
          by_cases pass : passes = true
          · rw [if_pos pass]
            refine Or.inr (Or.inr ⟨row, rows, rfl, .refl _, ?_⟩)
            simp only [if_pos pass]
            cases filterRows parameters schema condition rows <;> rfl
          · rw [if_neg pass]
            simp only [if_neg pass]
            rw [bind_pure]
            rcases ih with failed | none | ⟨row', later, found, sublist, rest⟩
            · exact Or.inl failed
            · exact Or.inr (Or.inl none)
            · exact Or.inr (Or.inr ⟨row', later, found, sublist.cons row, rest⟩)

theorem loadSelection_error {rows : List Bytes} {failure : SelectFailure}
    (failed : RowIterator.loadSelection parameters schema condition rows = .error failure) :
    filterRows parameters schema condition rows = .error failure := by
  rcases findNextMatch_filterRows parameters schema condition rows with
    ⟨failure', search, isFailure⟩ | ⟨search, _⟩ | ⟨_, _, search, _, _⟩
  · rw [RowIterator.loadSelection, search] at failed
    cases failed
    exact isFailure
  · rw [RowIterator.loadSelection, search] at failed
    cases failed
  · rw [RowIterator.loadSelection, search] at failed
    cases failed

/-- **The loop over a selection** filters the rows. -/
theorem collect_selection_eq {rows : List Bytes} {input : RowIterator} {fuel : Nat}
    (loaded : RowIterator.loadSelection parameters schema condition rows = .ok input)
    (enough : input.rowsLeft ≤ fuel) :
    Executor.collect parameters fuel input = filterRows parameters schema condition rows := by
  induction fuel generalizing rows input with
  | zero =>
      rcases findNextMatch_filterRows parameters schema condition rows with
        ⟨failure, search, _⟩ | ⟨search, isEmpty⟩ | ⟨row, later, search, _, _⟩
      · rw [RowIterator.loadSelection, search] at loaded
        cases loaded
      · rw [isEmpty]
        rfl
      · rw [RowIterator.loadSelection, search] at loaded
        cases loaded
        exact absurd enough (Nat.not_succ_le_zero _)
  | succ fuel ih =>
      rcases findNextMatch_filterRows parameters schema condition rows with
        ⟨failure, search, _⟩ | ⟨search, isEmpty⟩ | ⟨row, later, search, _, rest⟩
      · rw [RowIterator.loadSelection, search] at loaded
        cases loaded
      · rw [RowIterator.loadSelection, search] at loaded
        cases loaded
        rw [isEmpty]
        rfl
      · rw [RowIterator.loadSelection, search] at loaded
        cases loaded
        have enough : later.length + 1 ≤ fuel + 1 := enough
        rw [rest]
        show (RowIterator.loadSelection parameters schema condition later >>= fun next =>
          Executor.collect parameters fuel next >>= fun tail => pure (row :: tail)) = _
        cases moved : RowIterator.loadSelection parameters schema condition later with
        | error failure =>
            rw [loadSelection_error moved]
            rfl
        | ok next =>
            have fewer := (rowsLeft_loadSelection moved).trans (Nat.le_of_succ_le_succ enough)
            rw [bind_of_ok rfl, ih moved fewer]
            cases filterRows parameters schema condition later <;> rfl

end Rows

/-! ### The loop over a projection -/

/-- An iterator over a table that is at one of these rows. -/
def RowIterator.Over (rows : List Bytes) : RowIterator → Prop
  | .fileScan cursor current => (∀ row ∈ cursor, row ∈ rows) ∧ current = cursor.head?
  | .selection cursor _ _ current => (∀ row ∈ cursor, row ∈ rows) ∧ current = cursor.head?
  | .projection _ _ _ _ => False

theorem over_loadSelection {condition : Condition} {rows cursor : List Bytes} {input : RowIterator}
    (inside : ∀ row ∈ cursor, row ∈ rows)
    (loaded : RowIterator.loadSelection parameters schema condition cursor = .ok input) :
    input.Over rows := by
  rcases findNextMatch_filterRows parameters schema condition cursor with
    ⟨failure, search, _⟩ | ⟨search, _⟩ | ⟨row, later, search, sublist, _⟩
  · rw [RowIterator.loadSelection, search] at loaded
    cases loaded
  · rw [RowIterator.loadSelection, search] at loaded
    cases loaded
    exact ⟨List.forall_mem_nil _, rfl⟩
  · rw [RowIterator.loadSelection, search] at loaded
    cases loaded
    exact ⟨fun other member => inside other (sublist.mem member), rfl⟩

theorem over_next {rows : List Bytes} {input moved : RowIterator} (isOver : input.Over rows)
    (advanced : input.next parameters = .ok moved) : moved.Over rows := by
  cases input with
  | fileScan cursor current =>
      cases advanced
      exact ⟨fun row member => isOver.1 row (List.mem_of_mem_tail member), rfl⟩
  | selection cursor schema condition current =>
      exact over_loadSelection (fun row member => isOver.1 row (List.mem_of_mem_tail member)) advanced
  | projection input schema fields current => exact isOver.elim

theorem mem_of_over {rows : List Bytes} {input : RowIterator} (isOver : input.Over rows) {row : Bytes}
    (isCurrent : input.current = some row) : row ∈ rows := by
  cases input with
  | fileScan cursor current =>
      obtain ⟨inside, rfl⟩ := isOver
      exact inside row (List.mem_of_mem_head? isCurrent)
  | selection cursor schema condition current =>
      obtain ⟨inside, rfl⟩ := isOver
      exact inside row (List.mem_of_mem_head? isCurrent)
  | projection input schema fields current => exact isOver.elim

/-- **The loop over a projection** gives what the loop over its input gives, projected, if each of
the rows can be. -/
theorem collect_projection_eq {rows : List Bytes} {fields : List Nat} {projected : Bytes → Bytes}
    (projects : ∀ row ∈ rows, RowIterator.project schema fields row = .ok (projected row))
    {fuel : Nat} {input : RowIterator} (isOver : input.Over rows) :
    (RowIterator.loadProjection schema fields input >>= Executor.collect parameters fuel)
      = (Executor.collect parameters fuel input).map (List.map projected) := by
  induction fuel generalizing input with
  | zero =>
      rw [RowIterator.loadProjection]
      cases isCurrent : input.current with
      | none => rfl
      | some row =>
          simp only [projects row (mem_of_over isOver isCurrent)]
          rfl
  | succ fuel ih =>
      rw [RowIterator.loadProjection, Executor.collect]
      cases isCurrent : input.current with
      | none => rfl
      | some row =>
          have first := projects row (mem_of_over isOver isCurrent)
          simp only [first]
          show ((RowIterator.next parameters input >>= RowIterator.loadProjection schema fields)
            >>= fun next => Executor.collect parameters fuel next >>= fun tail =>
              pure (projected row :: tail)) = _
          cases advanced : input.next parameters with
          | error failure => rfl
          | ok moved =>
              have rest := ih (over_next isOver advanced)
              rw [bind_of_ok rfl, bind_of_ok rfl, ← bind_assoc, rest]
              cases Executor.collect parameters fuel moved <;> rfl

/-! ### Columns -/

/-- The loop of the optimizer over the columns finds the first column of each name, or fails. -/
theorem selectedIndices_eq (schema : Schema) (tableName : Bytes) (names : List Bytes) :
    match names.mapM (firstColumn schema) with
    | some fields => Optimizer.selectedIndices schema tableName names = .ok fields
    | none => ∃ name, Optimizer.selectedIndices schema tableName names
        = .error (.columnMissing name tableName) := by
  induction names with
  | nil => rfl
  | cons name names ih =>
      rw [Optimizer.selectedIndices, selectedIndex_eq, columnIndexFrom_eq, List.mapM_cons]
      cases firstColumn schema name with
      | none => exact ⟨name, rfl⟩
      | some field =>
          cases found : names.mapM (firstColumn schema) with
          | none =>
              rw [found] at ih
              obtain ⟨missing, failed⟩ := ih
              refine ⟨missing, ?_⟩
              rw [failed]
              rfl
          | some fields =>
              rw [found] at ih
              show (Except.ok (0 + field) >>= fun index =>
                Optimizer.selectedIndices schema tableName names >>= fun rest =>
                  pure (index :: rest)) = _
              rw [ih, Nat.zero_add]
              rfl

/-- The loops of `project` on fields of a row. -/
theorem copyFields_pick (matching : Matches schema values) {fields : List Nat}
    (inside : ∀ field ∈ fields, field < schema.length) :
    (∃ size, RowIterator.totalSize (rowCode.encodeAll values) schema fields = .ok size) ∧
      RowIterator.copyFields (rowCode.encodeAll values) schema fields
        = .ok (rowCode.encodeAll (pick fields values)) := by
  induction fields with
  | nil => exact ⟨⟨0, rfl⟩, rfl⟩
  | cons field fields ih =>
      obtain ⟨first, rest⟩ := List.forall_mem_cons.mp inside
      obtain ⟨⟨total, isTotal⟩, copied⟩ := ih rest
      have isValue : field < values.length := matching.length_eq ▸ first
      obtain ⟨offset, size, _⟩ := encodes_read matching isValue
      have segment : ((rowCode.encodeAll values).drop
          (rowCode.encodeAll (values.take field)).length).take (rowCode.encode values[field]).length
            = rowCode.encode values[field] := by
        rw [SelfDelimiting.drop_encodeAll rowCode values isValue, List.take_left]
      constructor
      · rw [RowIterator.totalSize, size, isTotal]
        exact ⟨_, rfl⟩
      · rw [RowIterator.copyFields, offset, size, copied,
          pick_cons (List.getElem?_eq_getElem isValue), SelfDelimiting.encodeAll_cons]
        exact congrArg (fun bytes => Except.ok (bytes ++ rowCode.encodeAll (pick fields values)))
          segment

/-- **A projection picks the fields.** -/
theorem project_pick (matching : Matches schema values) {fields : List Nat}
    (inside : ∀ field ∈ fields, field < schema.length) :
    RowIterator.project schema fields (rowCode.encodeAll values)
      = .ok (rowCode.encodeAll (pick fields values)) := by
  obtain ⟨⟨size, isSize⟩, copied⟩ := copyFields_pick matching inside
  rw [RowIterator.project, bind_of_ok isSize, copied]

/-- The executor finds the same columns. -/
theorem resultAttributes_pick {names : List Bytes} {fields : List Nat}
    (found : names.mapM (firstColumn schema) = some fields) :
    (names.flatMap fun name => Executor.resultAttribute name schema) = pick fields schema := by
  induction names generalizing fields with
  | nil =>
      cases found
      rfl
  | cons name names ih =>
      rw [List.mapM_cons] at found
      obtain ⟨field, isField, rest⟩ := Option.bind_eq_some_iff.mp found
      obtain ⟨more, areFields, isCons⟩ := Option.bind_eq_some_iff.mp rest
      cases isCons
      have isAttr := List.getElem?_eq_getElem (firstColumn_lt isField)
      rw [List.flatMap_cons, resultAttribute_eq isField isAttr, pick_cons isAttr, ih areFields]
      rfl

/-! ### The whole statement -/

variable {records : List (List Value)}

/-- The rows that a selection keeps, or the failure of a row that has no truth. -/
theorem filterRows_kept (parameters : Parameters) (fitting : Fitting schema records)
    (condition : Condition) :
    match kept parameters schema (some condition) records with
    | some found => filterRows parameters schema condition (records.map rowCode.encodeAll)
        = .ok (found.map rowCode.encodeAll)
    | none => ∃ failure, filterRows parameters schema condition (records.map rowCode.encodeAll)
        = .error failure ∧ failure.OfCondition := by
  induction records with
  | nil => exact rfl
  | cons values records ih =>
      obtain ⟨matching, others⟩ := List.forall_mem_cons.mp fitting
      have rest := ih others
      simp only [kept, List.forall_mem_cons, List.map_cons, filterRows] at rest ⊢
      rcases evaluateCondition_truth parameters matching condition with
        ⟨result, run, isTruth⟩ | ⟨failure, run, atFault, noTruth⟩
      · rw [run, isTruth, bind_of_ok rfl]
        by_cases judged : ∀ row ∈ records, truth parameters schema row condition ≠ none
        · rw [if_pos judged] at rest
          rw [if_pos ⟨Option.some_ne_none _, judged⟩, List.filter_cons]
          simp only at rest ⊢
          rw [rest, isTruth, bind_of_ok rfl]
          cases result <;> rfl
        · rw [if_neg judged] at rest
          rw [if_neg fun both => judged both.2]
          obtain ⟨failure, failed, atFault⟩ := rest
          refine ⟨failure, ?_, atFault⟩
          rw [failed]
          rfl
      · rw [run, noTruth, if_neg fun both => both.1 rfl]
        exact ⟨failure, rfl, atFault⟩

/-- The failures that are exceptions, which the executor turns into a result without success. -/
def SelectFailure.Caught (failure : SelectFailure) : Prop := ∀ read, failure ≠ .unreadable read

theorem SelectFailure.OfCondition.caught {failure : SelectFailure} (atFault : failure.OfCondition) :
    failure.Caught := by
  rintro read rfl
  exact atFault

/-- **The iterator below the projection**, and what the loop over it gives. -/
theorem collect_inputIterator (fitting : Fitting schema records) (stmt : SelectStmt) :
    (∃ failure, failure.Caught ∧ kept parameters schema stmt.whereClause records = none ∧
        inputIterator parameters schema stmt (records.map rowCode.encodeAll) = .error failure) ∨
      ∃ input, inputIterator parameters schema stmt (records.map rowCode.encodeAll) = .ok input ∧
        input.Over (records.map rowCode.encodeAll) ∧
        match kept parameters schema stmt.whereClause records with
        | some found => Executor.collect parameters input.rowsLeft input
            = .ok (found.map rowCode.encodeAll)
        | none => ∃ failure, Executor.collect parameters input.rowsLeft input = .error failure ∧
            failure.Caught := by
  unfold inputIterator
  cases stmt.whereClause with
  | none =>
      refine Or.inr ⟨_, rfl, ⟨fun row member => member, rfl⟩, ?_⟩
      exact collect_fileScan _ _ (Nat.le_refl _)
  | some condition =>
      have rows := filterRows_kept parameters fitting condition
      cases loaded : RowIterator.loadSelection parameters schema condition
          (records.map rowCode.encodeAll) with
      | error failure =>
          have failed := loadSelection_error loaded
          cases found : kept parameters schema (some condition) records with
          | some found' =>
              rw [found] at rows
              cases failed.symm.trans rows
          | none =>
              rw [found] at rows
              obtain ⟨failure', failed', atFault⟩ := rows
              cases failed.symm.trans failed'
              exact Or.inl ⟨failure, atFault.caught, rfl, loaded⟩
      | ok input =>
          have isOver := over_loadSelection (fun row member => member) loaded
          refine Or.inr ⟨input, loaded, isOver, ?_⟩
          rw [collect_selection_eq loaded (Nat.le_refl _)]
          cases found : kept parameters schema (some condition) records with
          | some found' =>
              rw [found] at rows
              exact rows
          | none =>
              rw [found] at rows
              obtain ⟨failure, failed, atFault⟩ := rows
              exact ⟨failure, failed, atFault.caught⟩

/-- What comes out of the iterators above the selection. -/
def outputRows (parameters : Parameters) (schema : Schema) (stmt : SelectStmt) (input : RowIterator) :
    Except SelectFailure (List Bytes) :=
  if stmt.selectAll then Executor.collect parameters input.rowsLeft input
  else do
    let fields ← Optimizer.selectedIndices schema stmt.tableName stmt.columns
    RowIterator.loadProjection schema fields input >>= Executor.collect parameters input.rowsLeft

/-- The executor collects what comes out. -/
theorem trySelect_source {tables : Tables} (exists_ : tables.tableExists stmt.tableName = true)
    {rows : List Bytes} (scanned : tables.getTable stmt.tableName = some (schema, rows)) :
    Executor.trySelect parameters tables stmt
      = (inputIterator parameters schema stmt rows >>= outputRows parameters schema stmt).map
          fun rows => ⟨true, some rows, some (Executor.resultSchema stmt schema)⟩ := by
  have source : Optimizer.getExecutionIterator parameters tables stmt
      = inputIterator parameters schema stmt rows >>= fun input =>
        if stmt.selectAll then .ok input
        else Optimizer.selectedIndices schema stmt.tableName stmt.columns >>= fun fields =>
          RowIterator.loadProjection schema fields input := by
    rw [Optimizer.getExecutionIterator, if_neg (by rw [exists_]; decide), inputIterator]
    simp only [scanned]
    cases stmt.whereClause <;> rfl
  rw [Executor.trySelect, source]
  cases inputIterator parameters schema stmt rows with
  | error failure => rfl
  | ok input =>
      rw [bind_of_ok rfl, bind_of_ok rfl, outputRows]
      by_cases all : stmt.selectAll = true
      · rw [if_pos all, if_pos all, bind_of_ok rfl]
        simp only [scanned]
        cases Executor.collect parameters input.rowsLeft input <;> rfl
      · rw [if_neg all, if_neg all]
        cases Optimizer.selectedIndices schema stmt.tableName stmt.columns with
        | error failure => rfl
        | ok fields =>
            rw [bind_of_ok rfl, bind_of_ok rfl]
            cases projected : RowIterator.loadProjection schema fields input with
            | error failure => rfl
            | ok iterator =>
                rw [bind_of_ok rfl, bind_of_ok rfl, rowsLeft_loadProjection projected]
                simp only [scanned]
                cases Executor.collect parameters input.rowsLeft iterator <;> rfl

/-- **What comes out of the iterators** is what the loop over the selection gives, with the columns
of the statement, if there are such columns. -/
theorem outputRows_eq (parameters : Parameters) (fitting : Fitting schema records) {stmt : SelectStmt}
    (columns : stmt.selectAll = false) {input : RowIterator}
    (isOver : input.Over (records.map rowCode.encodeAll)) :
    match stmt.columns.mapM (firstColumn schema) with
    | some fields => ∃ projected : Bytes → Bytes,
        (∀ record ∈ records, projected (rowCode.encodeAll record)
          = rowCode.encodeAll (pick fields record)) ∧
        outputRows parameters schema stmt input
          = (Executor.collect parameters input.rowsLeft input).map (List.map projected)
    | none => ∃ failure, outputRows parameters schema stmt input = .error failure ∧
        failure.Caught := by
  have indices := selectedIndices_eq schema stmt.tableName stmt.columns
  rw [outputRows, if_neg (by rw [columns]; decide)]
  cases found : stmt.columns.mapM (firstColumn schema) with
  | none =>
      rw [found] at indices
      obtain ⟨name, missing⟩ := indices
      refine ⟨.columnMissing name stmt.tableName, ?_, fun read => SelectFailure.noConfusion⟩
      rw [missing]
      rfl
  | some fields =>
      rw [found] at indices
      refine ⟨fun row => (RowIterator.project schema fields row).toOption.getD [], ?_, ?_⟩
      · intro record member
        simp only [project_pick (fitting record member) (fields_inside found)]
        rfl
      · rw [bind_of_ok indices]
        refine collect_projection_eq (fun row member => ?_) isOver
        obtain ⟨record, isRecord, rfl⟩ := List.mem_map.mp member
        simp only [project_pick (fitting record isRecord) (fields_inside found)]
        rfl

/-- **A `SELECT` on rows of the schema** gives the result that it has on their values, and fails with
an exception where it has none. -/
theorem trySelect_select (parameters : Parameters) (fitting : Fitting schema records)
    {tables : Tables} {stmt : SelectStmt}
    (exists_ : tables.tableExists stmt.tableName = true)
    (scanned : tables.getTable stmt.tableName = some (schema, records.map rowCode.encodeAll)) :
    match select parameters schema records stmt with
    | some (schema', rows) => Executor.trySelect parameters tables stmt
        = .ok ⟨true, some (rows.map rowCode.encodeAll), some schema'⟩
    | none => ∃ failure, Executor.trySelect parameters tables stmt = .error failure ∧
        failure.Caught := by
  rw [trySelect_source exists_ scanned, select]
  rcases (collect_inputIterator fitting stmt :
      (∃ failure : SelectFailure, failure.Caught ∧ kept parameters schema _ _ = none ∧ _) ∨ _) with
    ⟨failure, caught, noRows, failed⟩ | ⟨input, isInput, isOver, collected⟩
  · rw [noRows]
    refine ⟨failure, ?_, caught⟩
    rw [failed]
    rfl
  rw [bind_of_ok isInput, Executor.resultSchema]
  by_cases all : stmt.selectAll = true
  · rw [outputRows, if_pos all, if_pos all]
    cases isKept : kept parameters schema stmt.whereClause records with
    | none =>
        rw [isKept] at collected
        obtain ⟨failure, failed, caught⟩ := collected
        refine ⟨failure, ?_, caught⟩
        rw [failed]
        rfl
    | some found =>
        rw [isKept] at collected
        simp only [Option.bind_eq_bind, Option.bind_some, if_pos all]
        rw [collected]
        rfl
  · have output := outputRows_eq parameters fitting (Bool.eq_false_iff.mpr all) isOver
    rw [if_neg all]
    cases areColumns : stmt.columns.mapM (firstColumn schema) with
    | none =>
        rw [areColumns] at output
        obtain ⟨failure, failed, caught⟩ := output
        cases kept parameters schema stmt.whereClause records <;>
          (simp only [Option.bind_eq_bind, Option.bind_some, Option.bind_none, if_neg all]
           exact ⟨failure, by rw [failed]; rfl, caught⟩)
    | some fields =>
        rw [areColumns] at output
        obtain ⟨projected, isProjected, isOutput⟩ := output
        rw [isOutput, resultAttributes_pick areColumns]
        cases isKept : kept parameters schema stmt.whereClause records with
        | none =>
            rw [isKept] at collected
            obtain ⟨failure, failed, caught⟩ := collected
            refine ⟨failure, ?_, caught⟩
            rw [failed]
            rfl
        | some found =>
            rw [isKept] at collected
            simp only [Option.bind_eq_bind, Option.bind_some, if_neg all]
            rw [collected]
            have same : (found.map rowCode.encodeAll).map projected
                = (found.map (pick fields)).map rowCode.encodeAll := by
              rw [List.map_map, List.map_map]
              exact List.map_congr_left fun record member =>
                isProjected record ((kept_sublist isKept).mem member)
            show Except.ok _ = Except.ok _
            rw [same]

/-- **`execute(SelectStmt)`** gives the result that the statement has, or none. -/
theorem executeSelect_select (fitting : Fitting schema records) {tables : Tables} {stmt : SelectStmt}
    (exists_ : tables.tableExists stmt.tableName = true)
    (scanned : tables.getTable stmt.tableName = some (schema, records.map rowCode.encodeAll)) :
    Executor.executeSelect parameters tables stmt = .ok (match select parameters schema records stmt with
      | some (schema', rows) => ⟨true, some (rows.map rowCode.encodeAll), some schema'⟩
      | none => ⟨false, none, none⟩) := by
  have result := trySelect_select parameters fitting exists_ scanned
  rw [Executor.executeSelect]
  cases found : select parameters schema records stmt with
  | some answer =>
      rw [found] at result
      rw [result]
  | none =>
      rw [found] at result
      obtain ⟨failure, failed, caught⟩ := result
      rw [failed]
      cases failure with
      | unreadable read => exact absurd rfl (caught read)
      | _ => rfl

end Yadb
