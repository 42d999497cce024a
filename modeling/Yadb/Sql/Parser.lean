/-
**The grammar.**

The rules of `Parser.y` over the tokens of the lexer, each with the value that its action builds,
and `parse_sql_string`.

* `ConditionRule`: the conditions, on the three levels that `%left OR` and `%left AND` make.
* `StmtRule`, `StmtListRule`: the statements, and the statements of a query with their semicolons.
* `parse_reproduces_iff`: the lexemes of a query that is parsed are the whole query, but for blanks,
  exactly if the lexer comes to no stray character in it. The lexer reports a stray character and
  goes on, so that the parser never sees it.
-/

import Mathlib.Data.List.TakeWhile
import Yadb.Sql.Lexer
import Yadb.Executor.Insert

namespace Yadb

open Foundation Lexer

structure CreateTableStmt where
  tableName : Bytes
  columns : Schema

structure DropTableStmt where
  tableName : Bytes

structure DeleteStmt where
  tableName : Bytes
  hasWhere : Bool
  whereClause : Option Condition

structure UpdateStmt where
  tableName : Bytes
  setColumns : List Bytes
  hasWhere : Bool
  whereClause : Option Condition

inductive SqlStmt
  | select (stmt : SelectStmt)
  | insert (stmt : InsertStmt)
  | createTable (stmt : CreateTableStmt)
  | dropTable (stmt : DropTableStmt)
  | delete (stmt : DeleteStmt)
  | update (stmt : UpdateStmt)

/-! ### Type names -/

/-- `tolower`, in the `C` locale. -/
def toLower (character : UInt8) : UInt8 :=
  if 65 ≤ character ∧ character ≤ 90 then character + 32 else character

def equalsIgnoreCase (first second : Bytes) : Bool := first.map toLower = second.map toLower

/-- The types by their own names, in the order of their ids, then the aliases. -/
def typeNames : List (String × DataType) :=
  [DataType.i32, .string, .u32, .i64, .f64].map (fun type => (type.typeStr, type)) ++
    [("INTEGER", .i32), ("INT", .i32), ("BIGINT", .i64), ("DOUBLE", .f64), ("TEXT", .string)]

def typeFromName (name : Bytes) : Option TypeId :=
  (typeNames.find? fun entry => equalsIgnoreCase name (entry.1.toList.map byte)).map
    fun entry => entry.2.typeId

namespace Parser

/-! ### The rules -/

/-- A token without a value. -/
def plain (kind : TokenKind) : Token := ⟨kind, []⟩

/-- Items with commas between them: `column_list`, `value_list` and the like. -/
inductive CommaList {Item : Type} (rule : List Token → Item → Prop) : List Token → List Item → Prop
  | single {tokens : List Token} {item : Item} : rule tokens item → CommaList rule tokens [item]
  | more {front back : List Token} {items : List Item} {item : Item} :
      CommaList rule front items → rule back item →
        CommaList rule (front ++ plain .comma :: back) (items ++ [item])

/-- `column_name` and `table_name`. -/
def NameRule (tokens : List Token) (name : Bytes) : Prop := tokens = [⟨.identifier, name⟩]

def LiteralRule (tokens : List Token) (text : Bytes) : Prop :=
  tokens = [⟨.number, text⟩] ∨ tokens = [⟨.string, text⟩]

def OperandRule (tokens : List Token) : Operand → Prop
  | .column name => tokens = [⟨.identifier, name⟩]
  | .literal text => LiteralRule tokens text

def comparisonToken : ComparisonOp → TokenKind
  | .eq => .eq
  | .neq => .neq
  | .lt => .lt
  | .gt => .gt
  | .le => .le
  | .ge => .ge

/-- How loosely the outermost operator of a condition may bind. -/
inductive Level
  | operand | and | or

/-- `condition`. `AND` binds tighter than `OR`, and both take their left operand first. -/
inductive ConditionRule : Level → List Token → Condition → Prop
  | comparison {left right : List Token} {leftOperand rightOperand : Operand} {op : ComparisonOp} :
      OperandRule left leftOperand → OperandRule right rightOperand →
        ConditionRule .operand (left ++ plain (comparisonToken op) :: right)
          (.comparison leftOperand op rightOperand)
  | parens {tokens : List Token} {condition : Condition} : ConditionRule .or tokens condition →
      ConditionRule .operand (plain .lparen :: tokens ++ [plain .rparen]) condition
  | ofOperand {tokens : List Token} {condition : Condition} : ConditionRule .operand tokens condition →
      ConditionRule .and tokens condition
  | and {left right : List Token} {first second : Condition} :
      ConditionRule .and left first → ConditionRule .operand right second →
        ConditionRule .and (left ++ plain .and :: right) (.logical first .and second)
  | ofAnd {tokens : List Token} {condition : Condition} : ConditionRule .and tokens condition →
      ConditionRule .or tokens condition
  | or {left right : List Token} {first second : Condition} :
      ConditionRule .or left first → ConditionRule .and right second →
        ConditionRule .or (left ++ plain .or :: right) (.logical first .or second)

/-- `WHERE condition`, or nothing. -/
inductive WhereRule : List Token → Option Condition → Prop
  | absent : WhereRule [] none
  | present {tokens : List Token} {condition : Condition} : ConditionRule .or tokens condition →
      WhereRule (plain .where_ :: tokens) (some condition)

/-- An empty list means `SELECT *`. -/
inductive SelectListRule : List Token → List Bytes → Prop
  | all : SelectListRule [plain .star] []
  | columns {tokens : List Token} {columns : List Bytes} : CommaList NameRule tokens columns →
      SelectListRule tokens columns

/-- `column_def`, with `data_type`: an unknown type is an error. -/
def ColumnDefRule (tokens : List Token) (attr : RelationAttribute) : Prop :=
  ∃ typeName, tokens = [⟨.identifier, attr.name⟩, ⟨.identifier, typeName⟩] ∧
    typeFromName typeName = some attr.type

/-- `assignment`, whose value is not kept. -/
def AssignmentRule (tokens : List Token) (_ : Unit) : Prop :=
  ∃ column text literal, LiteralRule literal text ∧
    tokens = ⟨.identifier, column⟩ :: plain .eq :: literal

/-- The statements, without their semicolons. -/
inductive StmtRule : List Token → SqlStmt → Prop
  | select {selectList where_ : List Token} {columns : List Bytes} {tableName : Bytes}
      {whereClause : Option Condition} : SelectListRule selectList columns →
        WhereRule where_ whereClause →
          StmtRule (plain .select :: selectList ++
              plain .from_ :: ⟨.identifier, tableName⟩ :: where_)
            (.select ⟨tableName, columns.isEmpty, columns, whereClause⟩)
  | insert {literals : List Token} {tableName : Bytes} {values : List Bytes} :
      CommaList LiteralRule literals values →
        StmtRule (plain .insert :: plain .into :: ⟨.identifier, tableName⟩ :: plain .values ::
            plain .lparen :: literals ++ [plain .rparen])
          (.insert (.ofValues tableName values))
  | insertColumns {names literals : List Token} {tableName column : Bytes}
      {columns values : List Bytes} : CommaList NameRule names (column :: columns) →
        CommaList LiteralRule literals values →
          StmtRule (plain .insert :: plain .into :: ⟨.identifier, tableName⟩ :: plain .lparen ::
              names ++ plain .rparen :: plain .values :: plain .lparen ::
                literals ++ [plain .rparen])
            (.insert (.ofColumns tableName column columns values))
  | create {defs : List Token} {tableName : Bytes} {columns : Schema} :
      CommaList ColumnDefRule defs columns →
        StmtRule (plain .create :: plain .table :: ⟨.identifier, tableName⟩ :: plain .lparen ::
            defs ++ [plain .rparen])
          (.createTable ⟨tableName, columns⟩)
  | drop {tableName : Bytes} :
      StmtRule [plain .drop, plain .table, ⟨.identifier, tableName⟩] (.dropTable ⟨tableName⟩)
  | delete {where_ : List Token} {tableName : Bytes} {whereClause : Option Condition} :
      WhereRule where_ whereClause →
        StmtRule (plain .delete :: plain .from_ :: ⟨.identifier, tableName⟩ :: where_)
          (.delete ⟨tableName, whereClause.isSome, whereClause⟩)
  | update {assignments where_ : List Token} {tableName : Bytes} {assigned : List Unit}
      {whereClause : Option Condition} : CommaList AssignmentRule assignments assigned →
        WhereRule where_ whereClause →
          StmtRule (plain .update :: ⟨.identifier, tableName⟩ :: plain .set :: assignments ++ where_)
            (.update ⟨tableName, [], whereClause.isSome, whereClause⟩)

/-- `sql_stmt_list`. -/
inductive StmtListRule : List Token → List SqlStmt → Prop
  | empty : StmtListRule [] []
  | more {front back : List Token} {stmts : List SqlStmt} {stmt : SqlStmt} :
      StmtListRule front stmts → StmtRule back stmt →
        StmtListRule (front ++ back ++ [plain .semicolon]) (stmts ++ [stmt])

/-! ### `parse_sql_string` -/

/-- What `yy_scan_string` reads: `data()` up to the first NUL. -/
def cString (str : Bytes) : Bytes := str.takeWhile fun character => character ≠ 0

/-- `parse_sql_string` returns these statements. -/
def ParseSqlString (str : Bytes) (stmts : List SqlStmt) : Prop :=
  StmtListRule (tokens (cString str)) stmts

theorem cString_of_noNul {str : Bytes} (noNul : 0 ∉ str) : cString str = str := by
  refine List.takeWhile_eq_self_iff.mpr fun character member => ?_
  rw [decide_eq_true_eq]
  rintro rfl
  exact noNul member

/-- **No character of a query is dropped** but blanks between the lexemes, exactly if the lexer
comes to no stray character. -/
theorem parse_reproduces_iff {str : Bytes} (noNul : 0 ∉ str) (stmts : List SqlStmt) :
    ParseSqlString str stmts →
      (Interleaves IsBlank (handed (cString str)) str ↔
        ∀ lexeme ∈ lexemes str, ¬ Stray lexeme.ahead) := by
  intro _
  rw [cString_of_noNul noNul]
  exact reproduces_iff str

/-! ### A minus that is dropped -/

/-- `INSERT INTO t VALUES(- 5);`. -/
def insertMinus : Bytes :=
  [73, 78, 83, 69, 82, 84, 32, 73, 78, 84, 79, 32, 116, 32, 86, 65, 76, 85, 69, 83, 40, 45, 32, 53,
    41, 59]

/-- The minus has no digit behind it. -/
theorem lexemes_insertMinus : (lexemes insertMinus).map (fun lexeme => (lexeme.action, lexeme.text)) =
    [(.token .insert, [73, 78, 83, 69, 82, 84]), (.skip, [32]), (.token .into, [73, 78, 84, 79]),
      (.skip, [32]), (.token .identifier, [116]), (.skip, [32]),
      (.token .values, [86, 65, 76, 85, 69, 83]), (.token .lparen, [40]), (.unexpected, [45]),
      (.skip, [32]), (.token .number, [53]), (.token .rparen, [41]), (.token .semicolon, [59])] := by
  decide +kernel

/-- Neither the tokens nor the lexemes that are handed on depend on more than this. -/
theorem tokens_eq (input : Bytes) : tokens input =
    ((lexemes input).map fun lexeme => (lexeme.action, lexeme.text)).filterMap
      fun part => tokenOf ⟨part.1, part.2, []⟩ := by
  rw [List.filterMap_map]
  rfl

theorem handed_eq (input : Bytes) : handed input =
    (((lexemes input).map fun lexeme => (lexeme.action, lexeme.text)).filter
      fun part => isHanded ⟨part.1, part.2, []⟩).map Prod.snd := by
  rw [List.filter_map, List.map_map]
  rfl

/-- The query inserts a five. -/
theorem insertMinus_parses : ParseSqlString insertMinus [.insert (.ofValues [116] [[53]])] := by
  have isTokens : tokens (cString insertMinus) =
      [plain .insert, plain .into, ⟨.identifier, [116]⟩, plain .values, plain .lparen,
        ⟨.number, [53]⟩, plain .rparen, plain .semicolon] := by
    rw [cString_of_noNul (by decide), tokens_eq, lexemes_insertMinus]
    rfl
  rw [ParseSqlString, isTokens]
  exact .more .empty (.insert (.single (Or.inl rfl)))

theorem insertMinus_reproduces_iff :
    Interleaves IsBlank (handed (cString insertMinus)) insertMinus ↔
      ∀ lexeme ∈ lexemes insertMinus, ¬ Stray lexeme.ahead :=
  parse_reproduces_iff (by decide) _ insertMinus_parses

/-- **The minus is silently dropped.** -/
theorem insertMinus_drops : ∃ str stmts, 0 ∉ str ∧ ParseSqlString str stmts ∧
    ¬ Interleaves IsBlank (handed (cString str)) str := by
  refine ⟨insertMinus, _, by decide, insertMinus_parses, fun interleaves => ?_⟩
  have counted := interleaves.essential
  rw [cString_of_noNul (by decide), handed_eq, lexemes_insertMinus] at counted
  exact absurd counted (by decide)

end Parser

end Yadb
