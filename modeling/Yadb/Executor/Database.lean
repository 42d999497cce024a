/-
**The database that the statements are about.**

The abstract side of the executor: a database is a map from names to tables, a table its schema and
its rows as lists of values, and a statement a function of both. Nothing here has bytes, pages,
iterators or catalogs.

* `truth`: a condition on a row, which may have none: a column that is not there, a literal that does
  not read, two values of different types. What follows a decided operand is not looked at.
* `select`: the rows of which the condition is true, and the columns in the order they are named in.
* `Database.execute`: a statement on a database. `DELETE` and `UPDATE` are refused.

A table of an earlier session has a schema and no rows (`Entry.rows`): its name is taken, and every
statement but `DROP` is refused on it.
-/

import Yadb.Executor.WhereLegality
import Yadb.Sql.Parser

namespace Yadb

open Foundation

/-! ### Conditions -/

/-- The result that an operand of the operator decides, whatever the other one is. -/
def decisive : LogicalOp → Bool
  | .and => false
  | .or => true

/-- The truth of a comparison on a row, where it has one. -/
def comparisonTruth (parameters : Parameters) (schema : Schema) (values : List Value)
    (left : Operand) (op : ComparisonOp) (right : Operand) : Option Bool := do
  let type ← literalType schema left right
  let leftValue ← operandValue parameters schema values type left
  let rightValue ← operandValue parameters schema values type right
  if leftValue.type = rightValue.type then some (parameters.compare op leftValue rightValue)
  else none

/-- The truth of a condition on a row, where it has one. -/
def truth (parameters : Parameters) (schema : Schema) (values : List Value) :
    Condition → Option Bool
  | .comparison left op right => comparisonTruth parameters schema values left op right
  | .logical left op right => do
      let first ← truth parameters schema values left
      if first = decisive op then some first else truth parameters schema values right

/-! ### Queries -/

/-- The rows of which the condition is true, if it is true or false of each row. -/
def kept (parameters : Parameters) (schema : Schema) (whereClause : Option Condition)
    (rows : List (List Value)) : Option (List (List Value)) :=
  match whereClause with
  | none => some rows
  | some condition =>
      if ∀ row ∈ rows, truth parameters schema row condition ≠ none then
        some (rows.filter fun row => truth parameters schema row condition = some true)
      else none

/-- The elements at some places. -/
def pick {Element : Type} (fields : List Nat) (list : List Element) : List Element :=
  fields.filterMap fun field => list[field]?

/-- The schema and the rows of a query, if it has a result. -/
def select (parameters : Parameters) (schema : Schema) (rows : List (List Value))
    (stmt : SelectStmt) : Option (Schema × List (List Value)) := do
  let rows ← kept parameters schema stmt.whereClause rows
  if stmt.selectAll then return (schema, rows)
  else
    let fields ← stmt.columns.mapM (firstColumn schema)
    return (pick fields schema, rows.map (pick fields))

/-! ### Databases -/

/-- A table under its name. One of an earlier session has no rows. -/
structure Entry where
  schema : Schema
  rows : Option (List (List Value))

/-- The answer to a statement. -/
inductive Reply
  | failed
  | done
  | rows (schema : Schema) (rows : List (List Value))

abbrev Database := Bytes → Option Entry

namespace Database

instance (schema : Schema) (values : List Value) : Decidable (Matches schema values) :=
  inferInstanceAs (Decidable (List.Forall₂ _ schema values))

/-- The table with one more row, at the position that it takes. -/
def insert (parameters : Parameters) (entry : Entry) (stmt : InsertStmt) (position : Nat) :
    Option Entry := do
  let rows ← entry.rows
  if stmt.values.length ≠ entry.schema.length then none
  else
    let values ← Executor.readValues parameters.valueFromString entry.schema stmt.values
    if Matches entry.schema values then
      some ⟨entry.schema, some (insertAt position values rows)⟩
    else none

/-- A query on a table. -/
def query (parameters : Parameters) (database : Database) (stmt : SelectStmt) : Option Reply := do
  let entry ← database stmt.tableName
  let rows ← entry.rows
  let (schema, rows) ← select parameters entry.schema rows stmt
  return .rows schema rows

/-- A statement on a database, with the position at which an insert puts its row. -/
def execute (parameters : Parameters) (database : Database) (stmt : SqlStmt) (position : Nat) :
    Reply × Database :=
  match stmt with
  | .select stmt => ((query parameters database stmt).getD .failed, database)
  | .insert stmt =>
      match (database stmt.tableName).bind fun entry => insert parameters entry stmt position with
      | none => (.failed, database)
      | some entry => (.done, Function.update database stmt.tableName (some entry))
  | .createTable stmt =>
      match database stmt.tableName with
      | some _ => (.failed, database)
      | none => (.done, Function.update database stmt.tableName (some ⟨stmt.columns, some []⟩))
  | .dropTable stmt =>
      (if ((database stmt.tableName).bind Entry.rows).isSome then .done else .failed,
        Function.update database stmt.tableName none)
  | .delete _ => (.failed, database)
  | .update _ => (.failed, database)

/-- A new session knows the tables and has lost their rows. -/
def restart (database : Database) : Database := fun name =>
  (database name).map fun entry => ⟨entry.schema, none⟩

/-- The tables of the catalog are known by their names, and are not there for statements. -/
def initial : Database := fun name =>
  (Catalog.initialInfo name).map fun info => ⟨info.schema, none⟩

end Database

/-! ### What a query keeps -/

variable {parameters : Parameters} {schema : Schema} {rows : List (List Value)} {stmt : SelectStmt}

theorem pick_cons {Element : Type} {field : Nat} {fields : List Nat} {list : List Element}
    {element : Element} (found : list[field]? = some element) :
    pick (field :: fields) list = element :: pick fields list := by
  rw [pick, List.filterMap_cons_some found]
  rfl

theorem matches_pick {values : List Value} (matching : Matches schema values) {fields : List Nat}
    (inside : ∀ field ∈ fields, field < schema.length) :
    Matches (pick fields schema) (pick fields values) := by
  have lengths := List.Forall₂.length_eq matching
  induction fields with
  | nil => exact .nil
  | cons field fields ih =>
      obtain ⟨first, rest⟩ := List.forall_mem_cons.mp inside
      have isValue : field < values.length := lengths ▸ first
      rw [pick_cons (List.getElem?_eq_getElem first), pick_cons (List.getElem?_eq_getElem isValue)]
      exact .cons (matching.get first isValue) (ih rest)

theorem kept_sublist {whereClause : Option Condition} {found : List (List Value)}
    (isKept : kept parameters schema whereClause rows = some found) : found.Sublist rows := by
  cases whereClause with
  | none =>
      cases isKept
      exact .refl _
  | some condition =>
      simp only [kept] at isKept
      split at isKept
      · cases isKept
        exact List.filter_sublist
      · cases isKept

theorem fields_inside {names : List Bytes} {fields : List Nat}
    (found : names.mapM (firstColumn schema) = some fields) :
    ∀ field ∈ fields, field < schema.length := by
  induction names generalizing fields with
  | nil =>
      cases found
      exact List.forall_mem_nil _
  | cons name names ih =>
      rw [List.mapM_cons] at found
      obtain ⟨field, isField, rest⟩ := Option.bind_eq_some_iff.mp found
      obtain ⟨more, areFields, isCons⟩ := Option.bind_eq_some_iff.mp rest
      cases isCons
      exact List.forall_mem_cons.mpr ⟨firstColumn_lt isField, ih areFields⟩

/-- **The rows of a result are rows of its schema.** -/
theorem select_fitting (fitting : Fitting schema rows) {schema' : Schema}
    {rows' : List (List Value)} (isResult : select parameters schema rows stmt = some (schema', rows')) :
    Fitting schema' rows' := by
  obtain ⟨found, isKept, rest⟩ := Option.bind_eq_some_iff.mp isResult
  have fits : Fitting schema found := fun row member => fitting row ((kept_sublist isKept).mem member)
  by_cases all : stmt.selectAll = true
  · rw [if_pos all] at rest
    cases rest
    exact fits
  · rw [if_neg all] at rest
    obtain ⟨fields, areFields, isPair⟩ := Option.bind_eq_some_iff.mp rest
    cases isPair
    intro row member
    obtain ⟨original, isOriginal, rfl⟩ := List.mem_map.mp member
    exact matches_pick (fits original isOriginal) (fields_inside areFields)

end Yadb
