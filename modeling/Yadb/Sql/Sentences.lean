/-
**Parsing undoes printing, for every kind of statement.**

`INSERT`, `CREATE TABLE`, `DROP TABLE` and `UPDATE` are written beside `SELECT` and `DELETE`, the
literals in quotes, and the types under any of their names.

* `Sentence`: what can be written. The values that an `UPDATE` assigns are in it, and not in the
  statement that the parser makes of it (`Sentence.stmt`).
* `Sentence.rule`: the rules build from the tokens of a sentence its statement.
* `parse_sentences`: a text of sentences is parsed to their statements.
-/

import Yadb.Sql.Reading

namespace Yadb

open Foundation Lexer

namespace Parser

/-! ### What can be written -/

/-- A column with a name of its type. -/
structure ColumnDef where
  name : Bytes
  typeName : Bytes
  type : TypeId
  known : typeFromName typeName = some type

def ColumnDef.attr (column : ColumnDef) : RelationAttribute := ⟨column.name, column.type⟩

/-- `column = literal`. -/
structure Assignment where
  column : Bytes
  value : Bytes

/-- A statement as it is written. No list of it is empty but the columns of an `INSERT`, which can
be left out. -/
inductive Sentence
  | ofQuery (query : Query)
  | insert (tableName : Bytes) (columns : List Bytes) (value : Bytes) (values : List Bytes)
  | create (tableName : Bytes) (column : ColumnDef) (columns : List ColumnDef)
  | drop (tableName : Bytes)
  | update (tableName : Bytes) (assignment : Assignment) (assignments : List Assignment)
      (whereClause : Option Condition)

/-- What the parser makes of it. -/
def Sentence.stmt : Sentence → SqlStmt
  | .ofQuery query => query.stmt
  | .insert tableName columns value values => .insert ⟨tableName, columns, value :: values⟩
  | .create tableName column columns =>
      .createTable ⟨tableName, (column :: columns).map ColumnDef.attr⟩
  | .drop tableName => .dropTable ⟨tableName⟩
  | .update tableName _ _ whereClause => .update ⟨tableName, [], whereClause.isSome, whereClause⟩

section Tokens

variable {Item : Type}

/-- Items with commas between them. -/
def listTokens (item : Item → List Token) (first : Item) (rest : List Item) : List Token :=
  item first ++ rest.flatMap fun next => plain .comma :: item next

/-- A list in parentheses. -/
def enclosed (item : Item → List Token) (first : Item) (rest : List Item) : List Token :=
  plain .lparen :: listTokens item first rest ++ [plain .rparen]

end Tokens

def literalToken (text : Bytes) : Token := ⟨.string, text⟩

def ColumnDef.tokens (column : ColumnDef) : List Token :=
  [nameToken column.name, nameToken column.typeName]

def Assignment.tokens (assignment : Assignment) : List Token :=
  [nameToken assignment.column, plain .eq, literalToken assignment.value]

def columnsTokens : List Bytes → List Token
  | [] => []
  | column :: columns => enclosed (fun name => [nameToken name]) column columns

def Sentence.tokens : Sentence → List Token
  | .ofQuery query => query.tokens
  | .insert tableName columns value values =>
      plain .insert :: plain .into :: nameToken tableName :: columnsTokens columns ++
        plain .values :: enclosed (fun text => [literalToken text]) value values
  | .create tableName column columns =>
      plain .create :: plain .table :: nameToken tableName ::
        enclosed ColumnDef.tokens column columns
  | .drop tableName => [plain .drop, plain .table, nameToken tableName]
  | .update tableName assignment assignments whereClause =>
      plain .update :: nameToken tableName :: plain .set ::
        listTokens Assignment.tokens assignment assignments ++ whereTokens whereClause

/-- Every statement ends with a semicolon. -/
def textTokens (sentences : List Sentence) : List Token :=
  terminated (plain .semicolon) (sentences.map Sentence.tokens)

/-! ### The rules build the statements -/

theorem listTokens_rule {Item Result : Type} {rule : List Token → Result → Prop}
    {item : Item → List Token} {result : Item → Result} (each : ∀ one, rule (item one) (result one))
    (first : Item) (rest : List Item) :
    CommaList rule (listTokens item first rest) ((first :: rest).map result) := by
  have parts : List.Forall₂ rule (rest.map item) (rest.map result) := by
    rw [List.forall₂_map_left_iff, List.forall₂_map_right_iff, List.forall₂_same]
    exact fun one _ => each one
  have list := commaList_behind (.single (each first)) parts
  rw [List.flatMap_map] at list
  exact list

/-- **The rules build from the tokens of a sentence its statement.** -/
theorem Sentence.rule (sentence : Sentence) : StmtRule sentence.tokens sentence.stmt := by
  have literals : ∀ text, LiteralRule [literalToken text] text := fun _ => Or.inr rfl
  have names : ∀ name, NameRule [nameToken name] name := fun _ => rfl
  cases sentence with
  | ofQuery query => exact query.rule
  | insert tableName columns value values =>
      have values_ := listTokens_rule literals value values
      rw [List.map_id'] at values_
      cases columns with
      | nil => exact .insert values_
      | cons column columns =>
          have columns_ := listTokens_rule names column columns
          rw [List.map_id'] at columns_
          have rule := @StmtRule.insertColumns _ _ tableName _ _ _ columns_ values_
          simp only [List.cons_append, List.append_assoc] at rule
          simp only [Sentence.tokens, columnsTokens, enclosed, List.cons_append, List.append_assoc]
          exact rule
  | create tableName column columns =>
      have each : ∀ column : ColumnDef, ColumnDefRule column.tokens column.attr :=
        fun column => ⟨column.typeName, rfl, column.known⟩
      exact .create (listTokens_rule each column columns)
  | drop tableName => exact .drop
  | update tableName assignment assignments whereClause =>
      have each : ∀ assignment : Assignment, AssignmentRule assignment.tokens () :=
        fun assignment => ⟨assignment.column, assignment.value, [literalToken assignment.value],
          literals assignment.value, rfl⟩
      exact .update (listTokens_rule each assignment assignments) (whereTokens_rule whereClause)

/-! ### Printable sentences -/

/-- A literal that quotes can hold. -/
def Quotable (text : Bytes) : Prop := quote ∉ text ∧ 0 ∉ text

/-- The names are no keywords, the literals have neither a quote nor a NUL. -/
def Sentence.Printable : Sentence → Prop
  | .ofQuery query => query.Printable
  | .insert tableName columns value values => IsName tableName ∧ (∀ column ∈ columns, IsName column) ∧
      ∀ text ∈ value :: values, Quotable text
  | .create tableName column columns => IsName tableName ∧
      ∀ one ∈ column :: columns, IsName one.name ∧ IsName one.typeName
  | .drop tableName => IsName tableName
  | .update tableName assignment assignments whereClause => IsName tableName ∧
      (∀ one ∈ assignment :: assignments, IsName one.column ∧ Quotable one.value) ∧
        ∀ condition ∈ whereClause, condition.Printable

section Printable

variable {Item : Type} {item : Item → List Token} {first : Item} {rest : List Item}

theorem listTokens_printable
    (each : ∀ one ∈ first :: rest, ∀ token ∈ item one, token.Printable) :
    ∀ token ∈ listTokens item first rest, token.Printable := by
  obtain ⟨isFirst, isRest⟩ := List.forall_mem_cons.mp each
  refine List.forall_mem_append.mpr ⟨isFirst, fun token member => ?_⟩
  obtain ⟨next, isNext, inside⟩ := List.mem_flatMap.mp member
  rcases List.mem_cons.mp inside with rfl | inside
  · exact rfl
  · exact isRest next isNext token inside

theorem enclosed_printable (each : ∀ one ∈ first :: rest, ∀ token ∈ item one, token.Printable) :
    ∀ token ∈ enclosed item first rest, token.Printable :=
  List.forall_mem_append.mpr ⟨List.forall_mem_cons.mpr ⟨rfl, listTokens_printable each⟩,
    List.forall_mem_singleton.mpr rfl⟩

end Printable

theorem columnsTokens_printable {columns : List Bytes}
    (printable : ∀ column ∈ columns, IsName column) :
    ∀ token ∈ columnsTokens columns, token.Printable := by
  cases columns with
  | nil => exact List.forall_mem_nil _
  | cons column columns =>
      exact enclosed_printable fun name member => List.forall_mem_singleton.mpr
        (printable name member)

theorem Sentence.tokens_printable {sentence : Sentence} (printable : sentence.Printable) :
    ∀ token ∈ sentence.tokens, token.Printable := by
  cases sentence with
  | ofQuery query => exact Query.tokens_printable printable
  | insert tableName columns value values =>
      obtain ⟨tableIsName, names, quotable⟩ := printable
      have columnsPrintable := columnsTokens_printable names
      have valuesPrintable : ∀ token ∈ enclosed (fun text => [literalToken text]) value values,
          token.Printable :=
        enclosed_printable fun text member => List.forall_mem_singleton.mpr (quotable text member)
      refine List.forall_mem_append.mpr ⟨?_, List.forall_mem_cons.mpr ⟨rfl, valuesPrintable⟩⟩
      exact List.forall_mem_cons.mpr ⟨rfl, List.forall_mem_cons.mpr ⟨rfl,
        List.forall_mem_cons.mpr ⟨tableIsName, columnsPrintable⟩⟩⟩
  | create tableName column columns =>
      obtain ⟨tableIsName, names⟩ := printable
      have defsPrintable : ∀ token ∈ enclosed ColumnDef.tokens column columns, token.Printable :=
        enclosed_printable fun one member => List.forall_mem_cons.mpr ⟨(names one member).1,
          List.forall_mem_singleton.mpr (names one member).2⟩
      exact List.forall_mem_cons.mpr ⟨rfl, List.forall_mem_cons.mpr ⟨rfl,
        List.forall_mem_cons.mpr ⟨tableIsName, defsPrintable⟩⟩⟩
  | drop tableName =>
      exact List.forall_mem_cons.mpr ⟨rfl, List.forall_mem_cons.mpr ⟨rfl,
        List.forall_mem_singleton.mpr printable⟩⟩
  | update tableName assignment assignments whereClause =>
      obtain ⟨tableIsName, each, conditions⟩ := printable
      have listPrintable : ∀ token ∈ listTokens Assignment.tokens assignment assignments,
          token.Printable :=
        listTokens_printable fun one member => List.forall_mem_cons.mpr
          ⟨(each one member).1, List.forall_mem_cons.mpr ⟨rfl,
            List.forall_mem_singleton.mpr (each one member).2⟩⟩
      refine List.forall_mem_append.mpr ⟨?_, whereTokens_printable conditions⟩
      exact List.forall_mem_cons.mpr ⟨rfl, List.forall_mem_cons.mpr ⟨tableIsName,
        List.forall_mem_cons.mpr ⟨rfl, listPrintable⟩⟩⟩

theorem textTokens_printable {sentences : List Sentence}
    (printable : ∀ sentence ∈ sentences, sentence.Printable) :
    ∀ token ∈ textTokens sentences, token.Printable := by
  intro token member
  obtain ⟨part, isPart, inside⟩ := List.mem_flatMap.mp member
  obtain ⟨sentence, isSentence, rfl⟩ := List.mem_map.mp isPart
  rcases List.mem_append.mp inside with inside | isSemicolon
  · exact Sentence.tokens_printable (printable sentence isSentence) token inside
  · rw [List.mem_singleton.mp isSemicolon]
    exact rfl

/-! ### Parsing undoes printing -/

theorem textTokens_rule (sentences : List Sentence) :
    StmtListRule (textTokens sentences) (sentences.map Sentence.stmt) := by
  refine stmtListRule_iff.mpr ⟨sentences.map Sentence.tokens, rfl, ?_⟩
  rw [List.forall₂_map_left_iff, List.forall₂_map_right_iff, List.forall₂_same]
  exact fun sentence _ => sentence.rule

/-- A text of sentences is read as their statements. -/
theorem parseSqlString_sentences {sentences : List Sentence}
    (printable : ∀ sentence ∈ sentences, sentence.Printable) {str : Bytes}
    (renders : Renders (textTokens sentences) str) :
    parseSqlString str = some (sentences.map Sentence.stmt) := by
  have allPrintable := textTokens_printable printable
  have isTokens : tokens (cString str) = textTokens sentences := by
    rw [cString_of_noNul (noNul_of_renders allPrintable renders),
      tokens_of_renders allPrintable renders]
  refine (readStmts_iff (tokens_valued _)).mp ?_
  rw [isTokens]
  exact textTokens_rule sentences

/-- **A text of sentences is parsed to their statements**, and to nothing else, however the keywords
are written and whatever blanks stand between the words. -/
theorem parse_sentences {sentences : List Sentence}
    (printable : ∀ sentence ∈ sentences, sentence.Printable) {str : Bytes}
    (renders : Renders (textTokens sentences) str) (stmts : List SqlStmt) :
    ParseSqlString str stmts ↔ stmts = sentences.map Sentence.stmt := by
  have isRead : readStmts (tokens (cString str)) = some (sentences.map Sentence.stmt) :=
    parseSqlString_sentences printable renders
  rw [ParseSqlString, readStmts_iff (tokens_valued _), isRead, Option.some_inj, eq_comm]

theorem typeFromName_int : typeFromName [105, 110, 116] = some 0 := by decide

theorem typeFromName_u32 : typeFromName [85, 51, 50] = some 2 := by decide

theorem typeFromName_text : typeFromName [84, 69, 88, 84] = some 1 := by decide

theorem isName_a : IsName [97] := isName_letter (by decide) (by decide)

theorem isName_b : IsName [98] := isName_letter (by decide) (by decide)

theorem isName_t : IsName [116] := isName_letter (by decide) (by decide)

theorem isName_int : IsName [105, 110, 116] :=
  ⟨cons_mem_oneOf_mul (by decide) (mem_star_oneOf (List.forall_mem_cons.mpr
    ⟨by decide, List.forall_mem_singleton.mpr (by decide)⟩)), by decide⟩

theorem isName_u32 : IsName [85, 51, 50] :=
  ⟨cons_mem_oneOf_mul (by decide) (mem_star_oneOf (List.forall_mem_cons.mpr
    ⟨by decide, List.forall_mem_singleton.mpr (by decide)⟩)), by decide⟩

theorem isName_text : IsName [84, 69, 88, 84] :=
  ⟨cons_mem_oneOf_mul (by decide) (mem_star_oneOf (List.forall_mem_cons.mpr
    ⟨by decide, List.forall_mem_cons.mpr
      ⟨by decide, List.forall_mem_singleton.mpr (by decide)⟩⟩)), by decide⟩

/-- `CREATE TABLE t ( a int , b TEXT ) ; INSERT INTO t ( a ) VALUES ( '5' ) ; UPDATE t SET a = '6' ;`
and `DROP TABLE t ;`. -/
def fourSentences : List Sentence :=
  [.create [116] ⟨[97], [105, 110, 116], 0, typeFromName_int⟩
      [⟨[98], [84, 69, 88, 84], 1, typeFromName_text⟩],
    .insert [116] [[97]] [53] [], .update [116] ⟨[97], [54]⟩ [] none, .drop [116]]

theorem fourSentences_printable : ∀ sentence ∈ fourSentences, sentence.Printable := by
  have isFive : Quotable [53] := ⟨by decide, by decide⟩
  have isSix : Quotable [54] := ⟨by decide, by decide⟩
  have created : Sentence.Printable (.create [116] ⟨[97], [105, 110, 116], 0, typeFromName_int⟩
      [⟨[98], [84, 69, 88, 84], 1, typeFromName_text⟩]) := by
    exact ⟨isName_t, List.forall_mem_cons.mpr ⟨⟨isName_a, isName_int⟩,
      List.forall_mem_singleton.mpr ⟨isName_b, isName_text⟩⟩⟩
  have inserted : Sentence.Printable (.insert [116] [[97]] [53] []) :=
    ⟨isName_t, List.forall_mem_singleton.mpr isName_a, List.forall_mem_singleton.mpr isFive⟩
  have updated : Sentence.Printable (.update [116] ⟨[97], [54]⟩ [] none) :=
    ⟨isName_t, List.forall_mem_singleton.mpr ⟨isName_a, isSix⟩, by rintro _ ⟨⟩⟩
  exact List.forall_mem_cons.mpr ⟨created, List.forall_mem_cons.mpr ⟨inserted,
    List.forall_mem_cons.mpr ⟨updated, List.forall_mem_singleton.mpr isName_t⟩⟩⟩

theorem parse_fourSentences :
    ParseSqlString (printed (textTokens fourSentences)) (fourSentences.map Sentence.stmt) :=
  (parse_sentences fourSentences_printable
    (printed_renders (textTokens_printable fourSentences_printable)) _).mpr rfl

end Parser

end Yadb
