/-
**Parsing undoes printing.**

`SELECT` and `DELETE` statements are written as tokens, with parentheses around a condition only
where its operator binds looser than its place allows, and the tokens as words with blanks between
them. `parse_sql_string` reads the statements again.

* `queryTokens`: the tokens of some statements. The rules build the statements from them
  (`queryTokens_rule`).
* `StmtRule.noSemicolon`: a statement has no semicolon in it, so that a query falls into its
  statements in one way.
* `parse_print`: a query that is printed is parsed, and to nothing else.
-/

import Yadb.Sql.Grouping
import Yadb.Sql.Rendering

namespace Yadb

open Foundation Lexer

def Operand.Printable : Operand → Prop
  | .column name => IsName name
  | .literal text => quote ∉ text ∧ 0 ∉ text

def Condition.Printable : Condition → Prop
  | .comparison left _ right => left.Printable ∧ right.Printable
  | .logical left _ right => left.Printable ∧ right.Printable

namespace Parser

/-! ### Printing -/

def operandToken : Operand → Token
  | .column name => ⟨.identifier, name⟩
  | .literal text => ⟨.string, text⟩

/-- The tokens of a condition, with parentheses only where the operator binds looser than its place
allows. -/
def conditionTokens : Condition → Level → List Token
  | .comparison left op right, _ =>
      [operandToken left, plain (comparisonToken op), operandToken right]
  | .logical left .and right, .operand =>
      plain .lparen ::
        (conditionTokens left .and ++ plain .and :: conditionTokens right .operand) ++
          [plain .rparen]
  | .logical left .and right, _ =>
      conditionTokens left .and ++ plain .and :: conditionTokens right .operand
  | .logical left .or right, .or =>
      conditionTokens left .or ++ plain .or :: conditionTokens right .and
  | .logical left .or right, _ =>
      plain .lparen ::
        (conditionTokens left .or ++ plain .or :: conditionTokens right .and) ++
          [plain .rparen]

/-- A `SELECT` or `DELETE` statement: no columns are all columns. -/
inductive Query
  | select (columns : List Bytes) (tableName : Bytes) (whereClause : Option Condition)
  | delete (tableName : Bytes) (whereClause : Option Condition)

def Query.stmt : Query → SqlStmt
  | .select columns tableName whereClause =>
      .select ⟨tableName, columns.isEmpty, columns, whereClause⟩
  | .delete tableName whereClause => .delete ⟨tableName, whereClause.isSome, whereClause⟩

def nameToken (name : Bytes) : Token := ⟨.identifier, name⟩

def selectListTokens : List Bytes → List Token
  | [] => [plain .star]
  | columns => (columns.map nameToken).intersperse (plain .comma)

theorem intersperse_cons (name : Bytes) (more : List Bytes) :
    ((name :: more).map nameToken).intersperse (plain .comma)
      = [nameToken name] ++ more.flatMap fun name => [plain .comma, nameToken name] := by
  induction more generalizing name with
  | nil => rfl
  | cons second more ih =>
      have rest := ih second
      rw [List.map_cons] at rest ⊢
      rw [List.map_cons, List.intersperse_cons_cons, ← List.map_cons]
      rw [List.map_cons, rest]
      rfl

def whereTokens : Option Condition → List Token
  | none => []
  | some condition => plain .where_ :: conditionTokens condition .or

def Query.tokens : Query → List Token
  | .select columns tableName whereClause => plain .select :: selectListTokens columns ++
      plain .from_ :: nameToken tableName :: whereTokens whereClause
  | .delete tableName whereClause =>
      plain .delete :: plain .from_ :: nameToken tableName :: whereTokens whereClause

/-- Every statement ends with a semicolon. -/
def queryTokens (queries : List Query) : List Token :=
  terminated (plain .semicolon) (queries.map Query.tokens)

/-- The names are no keywords, the literals have neither a quote nor a NUL. -/
def Query.Printable : Query → Prop
  | .select columns tableName whereClause => (∀ column ∈ columns, IsName column) ∧
      IsName tableName ∧ ∀ condition ∈ whereClause, condition.Printable
  | .delete tableName whereClause =>
      IsName tableName ∧ ∀ condition ∈ whereClause, condition.Printable

theorem operandToken_printable {operand : Operand} (printable : operand.Printable) :
    (operandToken operand).Printable := by
  cases operand with
  | column name => exact printable
  | literal text => exact printable

theorem conditionTokens_printable {condition : Condition} (printable : condition.Printable) :
    ∀ level, ∀ token ∈ conditionTokens condition level, token.Printable := by
  have opened : (plain .lparen).Printable := rfl
  have closed : (plain .rparen).Printable := rfl
  have isAnd : (plain .and).Printable := rfl
  have isOr : (plain .or).Printable := rfl
  induction condition with
  | comparison left op right =>
      obtain ⟨leftPrintable, rightPrintable⟩ := printable
      have opPrintable : (plain (comparisonToken op)).Printable := by
        cases op <;> rfl
      intro level
      simp [conditionTokens, operandToken_printable leftPrintable,
        operandToken_printable rightPrintable, opPrintable]
  | logical left op right ihLeft ihRight =>
      obtain ⟨leftPrintable, rightPrintable⟩ := printable
      have fromLeft := ihLeft leftPrintable
      have fromRight := ihRight rightPrintable
      intro level
      cases op <;> cases level <;>
        simp only [conditionTokens, List.forall_mem_append, List.forall_mem_cons, List.cons_append]
      all_goals simp only [opened, closed, isAnd, isOr, true_and, and_true, List.not_mem_nil,
        false_implies, implies_true]
      all_goals exact ⟨fromLeft _, fromRight _⟩

theorem whereTokens_printable {whereClause : Option Condition}
    (printable : ∀ condition ∈ whereClause, condition.Printable) :
    ∀ token ∈ whereTokens whereClause, token.Printable := by
  cases whereClause with
  | none => exact nofun
  | some condition =>
      exact List.forall_mem_cons.mpr ⟨rfl, conditionTokens_printable (printable condition rfl) .or⟩

theorem selectListTokens_printable {columns : List Bytes}
    (printable : ∀ column ∈ columns, IsName column) :
    ∀ token ∈ selectListTokens columns, token.Printable := by
  cases columns with
  | nil => exact List.forall_mem_singleton.mpr rfl
  | cons column columns =>
      obtain ⟨first, rest⟩ := List.forall_mem_cons.mp printable
      show ∀ token ∈ ((column :: columns).map nameToken).intersperse (plain .comma), token.Printable
      rw [intersperse_cons]
      refine List.forall_mem_cons.mpr ⟨first, fun token member => ?_⟩
      obtain ⟨name, isName, inside⟩ := List.mem_flatMap.mp member
      rcases List.mem_cons.mp inside with rfl | inside
      · exact rfl
      · rw [List.mem_singleton.mp inside]
        exact rest name isName

theorem Query.tokens_printable {query : Query} (printable : query.Printable) :
    ∀ token ∈ query.tokens, token.Printable := by
  cases query with
  | select columns tableName whereClause =>
      obtain ⟨names, tableIsName, conditions⟩ := printable
      have columnsPrintable := selectListTokens_printable names
      have wherePrintable := whereTokens_printable conditions
      refine List.forall_mem_append.mpr ⟨List.forall_mem_cons.mpr ⟨rfl, columnsPrintable⟩, ?_⟩
      exact List.forall_mem_cons.mpr ⟨rfl, List.forall_mem_cons.mpr ⟨tableIsName, wherePrintable⟩⟩
  | delete tableName whereClause =>
      obtain ⟨tableIsName, conditions⟩ := printable
      have wherePrintable := whereTokens_printable conditions
      refine List.forall_mem_cons.mpr ⟨rfl, List.forall_mem_cons.mpr ⟨rfl, ?_⟩⟩
      exact List.forall_mem_cons.mpr ⟨tableIsName, wherePrintable⟩

theorem queryTokens_printable {queries : List Query}
    (printable : ∀ query ∈ queries, query.Printable) :
    ∀ token ∈ queryTokens queries, token.Printable := by
  intro token member
  obtain ⟨part, isPart, inside⟩ := List.mem_flatMap.mp member
  obtain ⟨query, isQuery, rfl⟩ := List.mem_map.mp isPart
  rcases List.mem_append.mp inside with inside | isSemicolon
  · exact Query.tokens_printable (printable query isQuery) token inside
  · rw [List.mem_singleton.mp isSemicolon]
    exact rfl

/-! ### What is printed is parsed -/

theorem conditionTokens_rule (condition : Condition) :
    ∀ level, ConditionRule level (conditionTokens condition level) condition := by
  have operandRule : ∀ operand, OperandRule [operandToken operand] operand := by
    intro operand
    cases operand with
    | column name => rfl
    | literal text => exact Or.inr rfl
  induction condition with
  | comparison left op right =>
      have rule : ConditionRule .operand ([operandToken left] ++ plain (comparisonToken op) ::
          [operandToken right]) (.comparison left op right) :=
        .comparison (operandRule left) (operandRule right)
      intro level
      cases level with
      | operand => exact rule
      | and => exact .ofOperand rule
      | or => exact .ofAnd (.ofOperand rule)
  | logical left op right ihLeft ihRight =>
      intro level
      cases op with
      | and =>
          have rule := ConditionRule.and (ihLeft .and) (ihRight .operand)
          cases level with
          | operand => exact .parens (.ofAnd rule)
          | and => exact rule
          | or => exact .ofAnd rule
      | or =>
          have rule := ConditionRule.or (ihLeft .or) (ihRight .and)
          cases level with
          | operand => exact .parens rule
          | and => exact .ofOperand (.parens rule)
          | or => exact rule

theorem whereTokens_rule (whereClause : Option Condition) :
    WhereRule (whereTokens whereClause) whereClause := by
  cases whereClause with
  | none => exact .absent
  | some condition => exact .present (conditionTokens_rule condition .or)

theorem columns_rule {tokens : List Token} {columns : List Bytes}
    (rule : CommaList NameRule tokens columns) (more : List Bytes) : CommaList NameRule
      (tokens ++ more.flatMap fun name => [plain .comma, nameToken name]) (columns ++ more) := by
  induction more generalizing tokens columns with
  | nil =>
      rw [List.flatMap_nil, List.append_nil, List.append_nil]
      exact rule
  | cons name more ih =>
      have next : CommaList NameRule (tokens ++ plain .comma :: [nameToken name])
          (columns ++ [name]) := .more rule rfl
      have rest := ih next
      rw [List.append_assoc, List.append_assoc] at rest
      exact rest

theorem selectListTokens_rule (columns : List Bytes) :
    SelectListRule (selectListTokens columns) columns := by
  cases columns with
  | nil => exact .all
  | cons name more =>
      refine .columns ?_
      show CommaList NameRule (((name :: more).map nameToken).intersperse (plain .comma)) _
      rw [intersperse_cons]
      exact columns_rule (.single rfl) more

theorem Query.rule (query : Query) : StmtRule query.tokens query.stmt := by
  cases query with
  | select columns tableName whereClause =>
      exact .select (selectListTokens_rule columns) (whereTokens_rule whereClause)
  | delete tableName whereClause => exact .delete (whereTokens_rule whereClause)

/-! ### One reading -/

theorem WhereRule.unique {tokens : List Token} {clause clause' : Option Condition}
    (rule : WhereRule tokens clause) (rule' : WhereRule tokens clause') : clause = clause' := by
  cases rule with
  | absent =>
      cases rule' with
      | absent => rfl
  | present condition =>
      cases rule' with
      | present condition' => rw [condition.unique condition']

/-- The names of a select list. -/
def namesOf (tokens : List Token) : List Bytes :=
  tokens.filterMap fun token => if token.kind = .identifier then some token.text else none

theorem SelectListRule.names {tokens : List Token} {columns : List Bytes}
    (rule : SelectListRule tokens columns) : namesOf tokens = columns := by
  cases rule with
  | all => rfl
  | columns rule =>
      induction rule with
      | single rule =>
          rw [rule]
          rfl
      | more _ rule ih =>
          rw [rule, namesOf, List.filterMap_append, ← namesOf, ih]
          rfl

theorem SelectListRule.noFrom {tokens : List Token} {columns : List Bytes}
    (rule : SelectListRule tokens columns) : plain .from_ ∉ tokens := by
  cases rule with
  | all => decide
  | columns rule =>
      induction rule with
      | single rule =>
          rw [rule, List.mem_singleton]
          exact nofun
      | more _ rule ih =>
          rw [rule, List.mem_append, List.mem_cons, List.mem_singleton]
          rintro (member | isComma | isName)
          · exact ih member
          · cases isComma
          · cases isName

/-- **The tokens of a statement are read as it.** -/
theorem Query.rule_iff {query : Query} {stmt : SqlStmt} :
    StmtRule query.tokens stmt ↔ stmt = query.stmt := by
  constructor
  · intro rule
    generalize isTokens : query.tokens = tokens at rule
    cases query with
    | select columns tableName whereClause =>
        rw [Query.tokens, List.cons_append] at isTokens
        cases rule with
        | select selectList where_ =>
            rw [List.cons_append] at isTokens
            have same := (List.cons.inj isTokens).2
            obtain ⟨rfl, sameBack⟩ := split_first (selectListTokens_rule columns).noFrom
              selectList.noFrom same
            obtain ⟨sameName, rfl⟩ := List.cons.inj sameBack
            have sameTable : tableName = _ := congrArg Token.text sameName
            rw [Query.stmt, ← (selectListTokens_rule columns).names, selectList.names, sameTable,
              (whereTokens_rule whereClause).unique where_]
        | _ => cases (List.cons.inj isTokens).1
    | delete tableName whereClause =>
        cases rule with
        | delete where_ =>
            obtain ⟨sameName, rfl⟩ := List.cons.inj (List.cons.inj (List.cons.inj isTokens).2).2
            have sameTable : tableName = _ := congrArg Token.text sameName
            rw [Query.stmt, sameTable, (whereTokens_rule whereClause).unique where_]
        | _ => cases (List.cons.inj isTokens).1
  · rintro rfl
    exact query.rule

/-! ### No semicolon inside a statement -/

theorem CommaList.noSemicolon {Item : Type} {rule : List Token → Item → Prop}
    (each : ∀ tokens item, rule tokens item → plain .semicolon ∉ tokens) {tokens : List Token}
    {items : List Item} (list : CommaList rule tokens items) : plain .semicolon ∉ tokens := by
  induction list with
  | single isItem => exact each _ _ isItem
  | more _ isItem ih =>
      have outside := each _ _ isItem
      simpa [plain] using And.intro ih outside

theorem NameRule.noSemicolon (tokens : List Token) (name : Bytes) (rule : NameRule tokens name) :
    plain .semicolon ∉ tokens := by
  rw [rule]
  simp [plain]

theorem LiteralRule.noSemicolon (tokens : List Token) (text : Bytes)
    (rule : LiteralRule tokens text) : plain .semicolon ∉ tokens := by
  rcases rule with rfl | rfl <;> simp [plain]

theorem ColumnDefRule.noSemicolon (tokens : List Token) (attr : RelationAttribute)
    (rule : ColumnDefRule tokens attr) : plain .semicolon ∉ tokens := by
  obtain ⟨typeName, rfl, _⟩ := rule
  simp [plain]

theorem AssignmentRule.noSemicolon (tokens : List Token) (value : Unit)
    (rule : AssignmentRule tokens value) : plain .semicolon ∉ tokens := by
  obtain ⟨column, text, literal, isLiteral, rfl⟩ := rule
  have outside := LiteralRule.noSemicolon literal text isLiteral
  simpa [plain] using outside

theorem OperandRule.noSemicolon {tokens : List Token} {operand : Operand}
    (rule : OperandRule tokens operand) : plain .semicolon ∉ tokens := by
  cases operand with
  | column name => exact NameRule.noSemicolon tokens name rule
  | literal text => exact LiteralRule.noSemicolon tokens text rule

theorem ConditionRule.noSemicolon {level : Level} {tokens : List Token} {condition : Condition}
    (rule : ConditionRule level tokens condition) : plain .semicolon ∉ tokens := by
  induction rule with
  | @comparison left right leftOperand rightOperand op leftRule rightRule =>
      have outsideLeft := OperandRule.noSemicolon leftRule
      have outsideRight := OperandRule.noSemicolon rightRule
      have notOp : TokenKind.semicolon ≠ comparisonToken op := by cases op <;> nofun
      simp_all [plain]
  | parens _ ih => simpa [plain] using ih
  | ofOperand _ ih => exact ih
  | ofAnd _ ih => exact ih
  | and _ _ ihLeft ihRight => simpa [plain] using And.intro ihLeft ihRight
  | or _ _ ihLeft ihRight => simpa [plain] using And.intro ihLeft ihRight

theorem WhereRule.noSemicolon {tokens : List Token} {whereClause : Option Condition}
    (rule : WhereRule tokens whereClause) : plain .semicolon ∉ tokens := by
  cases rule with
  | absent => exact List.not_mem_nil
  | present condition => simpa [plain] using condition.noSemicolon

theorem SelectListRule.noSemicolon {tokens : List Token} {columns : List Bytes}
    (rule : SelectListRule tokens columns) : plain .semicolon ∉ tokens := by
  cases rule with
  | all => decide
  | columns list => exact list.noSemicolon NameRule.noSemicolon

/-- **A statement has no semicolon in it.** -/
theorem StmtRule.noSemicolon {tokens : List Token} {stmt : SqlStmt} (rule : StmtRule tokens stmt) :
    plain .semicolon ∉ tokens := by
  cases rule with
  | select selectList where_ =>
      simpa [plain] using And.intro selectList.noSemicolon where_.noSemicolon
  | insert literals => simpa [plain] using literals.noSemicolon LiteralRule.noSemicolon
  | insertColumns names literals =>
      simpa [plain] using And.intro (names.noSemicolon NameRule.noSemicolon)
        (literals.noSemicolon LiteralRule.noSemicolon)
  | create defs => simpa [plain] using defs.noSemicolon ColumnDefRule.noSemicolon
  | drop => simp [plain]
  | delete where_ => simpa [plain] using where_.noSemicolon
  | update assignments where_ =>
      simpa [plain] using And.intro (assignments.noSemicolon AssignmentRule.noSemicolon)
        where_.noSemicolon

/-! ### Parsing undoes printing -/

/-- A query falls into the parts between its semicolons. -/
theorem stmtListRule_iff {tokens : List Token} {stmts : List SqlStmt} : StmtListRule tokens stmts ↔
    ∃ parts, tokens = terminated (plain .semicolon) parts ∧ List.Forall₂ StmtRule parts stmts := by
  constructor
  · intro rule
    induction rule with
    | empty => exact ⟨[], rfl, .nil⟩
    | @more front back stmts stmt _ isStmt ih =>
        obtain ⟨parts, rfl, each⟩ := ih
        exact ⟨parts ++ [back], (terminated_append _ parts back).symm,
          List.rel_append each (.cons isStmt .nil)⟩
  · rintro ⟨parts, rfl, each⟩
    have behind : ∀ front before, StmtListRule front before →
        StmtListRule (front ++ terminated (plain .semicolon) parts) (before ++ stmts) := by
      induction each with
      | nil =>
          intro front before rule
          rw [terminated, List.flatMap_nil, List.append_nil, List.append_nil]
          exact rule
      | @cons part stmt parts stmts isStmt _ ih =>
          intro front before rule
          have next := ih _ _ (.more rule isStmt)
          rw [List.append_assoc front, List.append_assoc front, List.append_assoc before] at next
          exact next
    exact behind [] [] .empty

/-- **The tokens of a query are parsed to it,** and to nothing else. -/
theorem queryTokens_rule (queries : List Query) (stmts : List SqlStmt) :
    StmtListRule (queryTokens queries) stmts ↔ stmts = queries.map Query.stmt := by
  have printedParts : ∀ part ∈ queries.map Query.tokens, plain .semicolon ∉ part := by
    intro part member
    obtain ⟨query, _, rfl⟩ := List.mem_map.mp member
    exact query.rule.noSemicolon
  rw [stmtListRule_iff]
  constructor
  · rintro ⟨parts, isTokens, each⟩
    have otherParts : ∀ part ∈ parts, plain .semicolon ∉ part := by
      clear isTokens
      induction each with
      | nil => exact nofun
      | cons isStmt _ ih => exact List.forall_mem_cons.mpr ⟨isStmt.noSemicolon, ih⟩
    rw [← terminated_inj printedParts otherParts isTokens, List.forall₂_map_left_iff] at each
    clear printedParts isTokens
    induction each with
    | nil => rfl
    | cons isStmt _ ih => rw [Query.rule_iff.mp isStmt, ih, List.map_cons]
  · rintro rfl
    refine ⟨queries.map Query.tokens, rfl, ?_⟩
    rw [List.forall₂_map_left_iff, List.forall₂_map_right_iff, List.forall₂_same]
    exact fun query _ => query.rule

/-- **Parsing undoes printing**, whatever blanks stand between the words. -/
theorem parse_print {queries : List Query} (printable : ∀ query ∈ queries, query.Printable)
    {str : Bytes} (renders : Renders (queryTokens queries) str) (stmts : List SqlStmt) :
    ParseSqlString str stmts ↔ stmts = queries.map Query.stmt := by
  have allPrintable := queryTokens_printable printable
  rw [ParseSqlString, cString_of_noNul (noNul_of_renders allPrintable renders),
    tokens_of_renders allPrintable renders]
  exact queryTokens_rule queries stmts

/-- `SELECT a, t FROM t WHERE a = 'x' AND (t < a OR a != 'SELECT'); DELETE FROM t;`. -/
def twoQueries : List Query :=
  [.select [[97], [116]] [116] (some
      (.logical (.comparison (.column [97]) .eq (.literal [120])) .and
        (.logical (.comparison (.column [116]) .lt (.column [97])) .or
          (.comparison (.column [97]) .neq (.literal [83, 69, 76, 69, 67, 84]))))),
    .delete [116] none]

theorem isName_letter {letter : UInt8} (member : letter ∈ letters)
    (noKeyword : ∀ entry ∈ literals, equalsIgnoreCase [letter] (entry.1.map byte) = false) :
    IsName [letter] :=
  ⟨cons_mem_oneOf_mul member (mem_star_oneOf nofun), noKeyword⟩

theorem twoQueries_printable : ∀ query ∈ twoQueries, query.Printable := by
  have isA : IsName [97] := isName_letter (by decide) (by decide)
  have isT : IsName [116] := isName_letter (by decide) (by decide)
  refine List.forall_mem_cons.mpr ⟨⟨?_, isT, ?_⟩, List.forall_mem_singleton.mpr ⟨isT, nofun⟩⟩
  · exact List.forall_mem_cons.mpr ⟨isA, List.forall_mem_singleton.mpr isT⟩
  · rintro _ ⟨⟩
    exact ⟨⟨isA, by decide, by decide⟩, ⟨isT, isA⟩, isA, by decide, by decide⟩

theorem parse_print_twoQueries :
    ParseSqlString (printed (queryTokens twoQueries)) (twoQueries.map Query.stmt) :=
  (parse_print twoQueries_printable
    (printed_renders (queryTokens_printable twoQueries_printable)) _).mpr rfl

end Parser

end Yadb
