/-
**The parser as a function.**

The rules of `Parser.y` say which statements a list of tokens may stand for. Here the tokens are
read: a query falls into statements at its semicolons, a list into items at its commas, and a
condition is read from left to right, as `readTokens` does it.

* `Reads`: what has been read of a condition is what the rules build from the tokens so far, part
  by part: what waits in each of the open parentheses, and the comparison at hand.
* `readCondition_iff`, `readStmt_iff`, `readStmts_iff`: the rules build exactly what is read.
* `parse_iff`: so a query is parsed in one way at most, and it is decided which ones are.
-/

import Yadb.Sql.RoundTrip

namespace Yadb

open Foundation Lexer

namespace Parser

/-! ### Tokens with and without a value -/

/-- Only identifiers, numbers and strings have a value. -/
def Valued (token : Token) : Prop :=
  token.kind = .identifier ∨ token.kind = .number ∨ token.kind = .string ∨ token.text = []

theorem Valued.eq_plain {token : Token} (valued : Valued token) {kind : TokenKind}
    (isKind : token.kind = kind) (notName : kind ≠ .identifier) (notNumber : kind ≠ .number)
    (notString : kind ≠ .string) : token = plain kind := by
  obtain ⟨_, text⟩ := token
  subst isKind
  rcases valued with isName | isNumber | isString | noText
  · exact absurd isName notName
  · exact absurd isNumber notNumber
  · exact absurd isString notString
  · exact congrArg _ noText

/-- The lexer gives no other tokens. -/
theorem tokens_valued (input : Bytes) : ∀ token ∈ tokens input, Valued token := by
  intro token member
  obtain ⟨lexeme, _, isToken⟩ := List.mem_filterMap.mp member
  rw [tokenOf] at isToken
  split at isToken
  · next kind _ =>
      cases isToken
      cases kind <;> simp [Valued, semanticText]
  · cases isToken
  · cases isToken

/-! ### Conditions -/

theorem operandRule_iff {tokens : List Token} {operand : Operand} :
    OperandRule tokens operand ↔ ∃ token, tokens = [token] ∧ operandOf token = some operand := by
  constructor
  · intro rule
    obtain ⟨token, isToken, _, isOperand⟩ := operandRule_some rule
    exact ⟨token, isToken, isOperand⟩
  · rintro ⟨⟨kind, text⟩, rfl, isOperand⟩
    cases kind <;> cases isOperand
    · exact rfl
    · exact Or.inr rfl
    · exact Or.inl rfl

theorem comparisonOf_some {kind : TokenKind} {op : ComparisonOp}
    (isOp : comparisonOf kind = some op) : kind = comparisonToken op := by
  cases kind <;> cases isOp <;> rfl

/-- The left side of an operator, and the operator. -/
def LeftRule (level : Level) (operator : TokenKind) : Option Condition → List Token → Prop
  | none, tokens => tokens = []
  | some left, tokens => ∃ front, tokens = front ++ [plain operator] ∧ ConditionRule level front left

/-- What waits inside a pair of parentheses. -/
def Waits (waiting : Waiting) (tokens : List Token) : Prop :=
  ∃ or_ and_, tokens = or_ ++ and_ ∧ LeftRule .or .or waiting.orLeft or_ ∧
    LeftRule .and .and waiting.andLeft and_

/-- What waits outside of the innermost parentheses, which are open. -/
inductive Encloses : List Waiting → List Token → Prop
  | nil : Encloses [] []
  | cons {waiting : Waiting} {outer : List Waiting} {front tokens : List Token} :
      Encloses outer front → Waits waiting tokens →
        Encloses (waiting :: outer) (front ++ tokens ++ [plain .lparen])

def PartRule : Part → List Token → Prop
  | .nothing, tokens => tokens = []
  | .operand left, tokens => OperandRule tokens left
  | .comparison left op, tokens =>
      ∃ front, tokens = front ++ [plain (comparisonToken op)] ∧ OperandRule front left
  | .whole condition, tokens => ConditionRule .operand tokens condition

/-- **What has been read of a condition is what the rules build from the tokens so far.** -/
def Reads (reading : Reading) (tokens : List Token) : Prop :=
  ∃ around waiting part, tokens = around ++ waiting ++ part ∧ Encloses reading.outer around ∧
    Waits reading.waiting waiting ∧ PartRule reading.part part

theorem waits_nothing : Waits ⟨none, none⟩ [] := ⟨[], [], rfl, rfl, rfl⟩

theorem LeftRule.and {left : Option Condition} {front back : List Token} {condition : Condition}
    (rule : LeftRule .and .and left front) (isCondition : ConditionRule .operand back condition) :
    ConditionRule .and (front ++ back) (joined left .and condition) := by
  cases left with
  | none =>
      have nothing : front = [] := rule
      rw [nothing]
      exact .ofOperand isCondition
  | some left =>
      obtain ⟨tokens, rfl, isLeft⟩ := rule
      rw [List.append_assoc]
      exact .and isLeft isCondition

theorem LeftRule.or {left : Option Condition} {front back : List Token} {condition : Condition}
    (rule : LeftRule .or .or left front) (isCondition : ConditionRule .and back condition) :
    ConditionRule .or (front ++ back) (joined left .or condition) := by
  cases left with
  | none =>
      have nothing : front = [] := rule
      rw [nothing]
      exact .ofAnd isCondition
  | some left =>
      obtain ⟨tokens, rfl, isLeft⟩ := rule
      rw [List.append_assoc]
      exact .or isLeft isCondition

/-- What waits, closed with what has been read behind it. -/
theorem Waits.close {waiting : Waiting} {front back : List Token} {condition : Condition}
    (waits : Waits waiting front) (isCondition : ConditionRule .operand back condition) :
    ConditionRule .or (front ++ back) (waiting.close condition) := by
  obtain ⟨or_, and_, rfl, isOr, isAnd⟩ := waits
  rw [List.append_assoc]
  exact isOr.or (isAnd.and isCondition)

/-- **One token more.** -/
theorem readToken_reads {reading reading' : Reading} {tokens : List Token} {token : Token}
    (reads : Reads reading tokens) (valued : Valued token)
    (isRead : readToken reading token = some reading') : Reads reading' (tokens ++ [token]) := by
  obtain ⟨part, waiting, outer⟩ := reading
  obtain ⟨around, front, back, rfl, encloses, waits, isPart⟩ := reads
  cases part with
  | nothing =>
      have noBack : back = [] := isPart
      subst noBack
      rw [readToken] at isRead
      by_cases opens : token.kind = .lparen
      · rw [if_pos opens] at isRead
        cases isRead
        rw [valued.eq_plain opens TokenKind.noConfusion TokenKind.noConfusion TokenKind.noConfusion,
          List.append_nil]
        refine ⟨_, [], [], ?_, .cons encloses waits, waits_nothing, rfl⟩
        rw [List.append_nil, List.append_nil]
      · rw [if_neg opens] at isRead
        obtain ⟨left, isLeft, same⟩ := Option.map_eq_some_iff.mp isRead
        cases same
        rw [List.append_nil]
        exact ⟨around, front, [token], rfl, encloses, waits, operandRule_iff.mpr ⟨token, rfl, isLeft⟩⟩
  | operand left =>
      obtain ⟨op, isOp, same⟩ := Option.map_eq_some_iff.mp isRead
      cases same
      have isKind := comparisonOf_some isOp
      have isToken : token = plain (comparisonToken op) := by
        refine valued.eq_plain isKind ?_ ?_ ?_ <;> cases op <;> exact TokenKind.noConfusion
      rw [isToken]
      exact ⟨around, front, back ++ [plain (comparisonToken op)], List.append_assoc _ _ _, encloses,
        waits, back, rfl, isPart⟩
  | comparison left op =>
      obtain ⟨right, isRight, same⟩ := Option.map_eq_some_iff.mp isRead
      cases same
      obtain ⟨operand, rfl, isLeft⟩ := isPart
      have rule : ConditionRule .operand (operand ++ plain (comparisonToken op) :: [token])
          (.comparison left op right) := .comparison isLeft (operandRule_iff.mpr ⟨token, rfl, isRight⟩)
      refine ⟨around, front, _, ?_, encloses, waits, rule⟩
      simp only [List.append_assoc, List.cons_append, List.nil_append]
  | whole condition =>
      have isCondition : ConditionRule .operand back condition := isPart
      simp only [readToken] at isRead
      split at isRead
      · next isAnd =>
          cases isRead
          rw [valued.eq_plain isAnd TokenKind.noConfusion TokenKind.noConfusion TokenKind.noConfusion]
          obtain ⟨or_, and_, rfl, orRule, andRule⟩ := waits
          refine ⟨around, or_ ++ (and_ ++ back ++ [plain .and]), [], ?_, encloses,
            ⟨or_, and_ ++ back ++ [plain .and], rfl, orRule, and_ ++ back, rfl,
              andRule.and isCondition⟩, rfl⟩
          simp only [List.append_assoc, List.append_nil]
      · next isOr =>
          cases isRead
          rw [valued.eq_plain isOr TokenKind.noConfusion TokenKind.noConfusion TokenKind.noConfusion]
          refine ⟨around, front ++ back ++ [plain .or], [], ?_, encloses,
            ⟨front ++ back ++ [plain .or], [], (List.append_nil _).symm, ⟨front ++ back, rfl,
              waits.close isCondition⟩, rfl⟩, rfl⟩
          simp only [List.append_assoc, List.append_nil]
      · next isClose =>
          cases isRead
          rw [valued.eq_plain isClose TokenKind.noConfusion TokenKind.noConfusion
            TokenKind.noConfusion]
          cases encloses with
          | @cons _ _ outerTokens waitingTokens encloses waits' =>
              refine ⟨outerTokens, waitingTokens, plain .lparen :: (front ++ back) ++ [plain .rparen],
                ?_, encloses, waits', .parens (waits.close isCondition)⟩
              simp only [List.append_assoc, List.cons_append, List.nil_append]
      · cases isRead

theorem readTokens_reads {reading reading' : Reading} {front tokens : List Token}
    (reads : Reads reading front) (valued : ∀ token ∈ tokens, Valued token)
    (isRead : readTokens reading tokens = some reading') : Reads reading' (front ++ tokens) := by
  induction tokens generalizing reading front with
  | nil =>
      cases isRead
      rw [List.append_nil]
      exact reads
  | cons token tokens ih =>
      obtain ⟨first, rest⟩ := List.forall_mem_cons.mp valued
      rw [readTokens_cons] at isRead
      obtain ⟨middle, isFirst, isRest⟩ := Option.bind_eq_some_iff.mp isRead
      have whole := ih (readToken_reads reads first isFirst) rest isRest
      rw [List.append_assoc] at whole
      exact whole

def readCondition (tokens : List Token) : Option Condition :=
  match readTokens ⟨.nothing, ⟨none, none⟩, []⟩ tokens with
  | some ⟨.whole last, waiting, []⟩ => some (waiting.close last)
  | _ => none

theorem ConditionRule.readCondition_eq {tokens : List Token} {condition : Condition}
    (rule : ConditionRule .or tokens condition) : readCondition tokens = some condition := by
  obtain ⟨after, last, isCondition, isRead⟩ := rule.readTokens_eq ⟨none, none⟩ [] (fun _ => rfl)
    (fun _ => rfl)
  rw [readCondition, isRead]
  exact congrArg some isCondition

/-- **The rules build from the tokens the condition that is read.** -/
theorem readCondition_iff {tokens : List Token} (valued : ∀ token ∈ tokens, Valued token)
    {condition : Condition} :
    ConditionRule .or tokens condition ↔ readCondition tokens = some condition := by
  constructor
  · exact ConditionRule.readCondition_eq
  · intro isRead
    rw [readCondition] at isRead
    split at isRead
    · next last waiting isReading =>
        cases isRead
        have start : Reads ⟨.nothing, ⟨none, none⟩, []⟩ [] :=
          ⟨[], [], [], rfl, .nil, waits_nothing, rfl⟩
        obtain ⟨around, front, back, isTokens, encloses, waits, isCondition⟩ :=
          readTokens_reads start valued isReading
        cases encloses
        rw [List.nil_append, List.nil_append] at isTokens
        rw [isTokens]
        exact waits.close isCondition
    · cases isRead

/-! ### Lists with commas -/

/-- The items between the commas. -/
def readList {Item : Type} (read : List Token → Option Item) (tokens : List Token) :
    Option (List Item) :=
  (tokens.splitOn (plain .comma)).mapM read

/-- No token of the rule is this one. -/
def Excludes {Item : Type} (kind : TokenKind) (rule : List Token → Item → Prop) : Prop :=
  ∀ tokens item, rule tokens item → plain kind ∉ tokens

theorem commaList_behind {Item : Type} {rule : List Token → Item → Prop} {front : List Token}
    {parts : List (List Token)} {before items : List Item} (list : CommaList rule front before)
    (each : List.Forall₂ rule parts items) :
    CommaList rule (front ++ parts.flatMap (plain .comma :: ·)) (before ++ items) := by
  induction each generalizing front before with
  | nil =>
      rw [List.flatMap_nil, List.append_nil, List.append_nil]
      exact list
  | cons isItem _ ih =>
      have rest := ih (.more list isItem)
      rw [List.append_assoc, List.append_assoc] at rest
      exact rest

/-- **The items of a list are those between its commas.** -/
theorem commaList_iff {Item : Type} {rule : List Token → Item → Prop}
    {read : List Token → Option Item} (noComma : Excludes .comma rule)
    (reads : ∀ tokens item, rule tokens item ↔ read tokens = some item) {tokens : List Token}
    {items : List Item} : CommaList rule tokens items ↔ readList read tokens = some items := by
  constructor
  · intro list
    induction list with
    | @single tokens item isItem =>
        rw [readList, List.splitOn_eq_singleton (noComma tokens item isItem), List.mapM_cons,
          (reads tokens item).mp isItem]
        rfl
    | @more front back items item _ isItem ih =>
        rw [readList] at ih ⊢
        rw [List.splitOn_append_cons_self, List.splitOn_eq_singleton (noComma back item isItem),
          List.mapM_append, ih, List.mapM_cons, (reads back item).mp isItem]
        rfl
  · intro isRead
    have joins : [plain .comma].intercalate (tokens.splitOn (plain .comma)) = tokens :=
      List.intercalate_splitOn _
    have each := mapM_eq_some_iff.mp isRead
    obtain ⟨part, parts, isParts⟩ := List.exists_cons_of_ne_nil
      (List.splitOn_ne_nil (plain .comma) tokens)
    rw [isParts] at joins each
    obtain ⟨item, items, isItem, rest, rfl⟩ := List.forall₂_cons_left_iff.mp each
    rw [← joins, intercalate_cons_flatMap]
    exact commaList_behind (.single ((reads part item).mpr isItem))
      (rest.imp fun part item => (reads part item).mpr)

theorem CommaList.excludes {Item : Type} {rule : List Token → Item → Prop} {kind : TokenKind}
    (notComma : kind ≠ .comma) (each : Excludes kind rule) : Excludes kind (CommaList rule) := by
  intro tokens items list
  induction list with
  | single isItem => exact each _ _ isItem
  | more _ isItem ih =>
      have outside := each _ _ isItem
      simpa [plain, notComma] using And.intro ih outside

/-! ### The items -/

def readName : List Token → Option Bytes
  | [token] => if token.kind = .identifier then some token.text else none
  | _ => none

def readLiteral : List Token → Option Bytes
  | [token] => if token.kind = .number ∨ token.kind = .string then some token.text else none
  | _ => none

def readColumnDef : List Token → Option RelationAttribute
  | [name, type] =>
      if name.kind = .identifier ∧ type.kind = .identifier then
        (typeFromName type.text).map fun typeId => ⟨name.text, typeId⟩
      else none
  | _ => none

def readAssignment : List Token → Option Unit
  | column :: operator :: literal =>
      if column.kind = .identifier ∧ operator = plain .eq then (readLiteral literal).map fun _ => ()
      else none
  | _ => none

theorem nameRule_iff (tokens : List Token) (name : Bytes) :
    NameRule tokens name ↔ readName tokens = some name := by
  constructor
  · intro rule
    rw [rule]
    rfl
  · intro isRead
    rw [readName.eq_def] at isRead
    split at isRead
    · next token =>
        split at isRead
        · next isName =>
            cases isRead
            rw [NameRule, ← isName]
        · cases isRead
    · cases isRead

theorem literalRule_iff (tokens : List Token) (text : Bytes) :
    LiteralRule tokens text ↔ readLiteral tokens = some text := by
  constructor
  · rintro (rule | rule) <;> rw [rule] <;> rfl
  · intro isRead
    rw [readLiteral.eq_def] at isRead
    split at isRead
    · next token =>
        split at isRead
        · next isLiteral =>
            cases isRead
            rcases isLiteral with isNumber | isString
            · exact Or.inl (by rw [← isNumber])
            · exact Or.inr (by rw [← isString])
        · cases isRead
    · cases isRead

theorem columnDefRule_iff (tokens : List Token) (attr : RelationAttribute) :
    ColumnDefRule tokens attr ↔ readColumnDef tokens = some attr := by
  constructor
  · rintro ⟨typeName, rfl, isType⟩
    have both : TokenKind.identifier = .identifier ∧ TokenKind.identifier = .identifier := ⟨rfl, rfl⟩
    rw [readColumnDef, if_pos both, isType]
    rfl
  · intro isRead
    rw [readColumnDef.eq_def] at isRead
    split at isRead
    · next name type =>
        split at isRead
        · next both =>
            obtain ⟨nameKind, nameText⟩ := name
            obtain ⟨typeKind, typeText⟩ := type
            obtain ⟨typeId, isType, same⟩ := Option.map_eq_some_iff.mp isRead
            cases same
            obtain ⟨rfl, rfl⟩ := both
            exact ⟨typeText, rfl, isType⟩
        · cases isRead
    · cases isRead

theorem assignmentRule_iff (tokens : List Token) (value : Unit) :
    AssignmentRule tokens value ↔ readAssignment tokens = some value := by
  constructor
  · rintro ⟨column, text, literal, isLiteral, rfl⟩
    have both : TokenKind.identifier = .identifier ∧ plain .eq = plain .eq := ⟨rfl, rfl⟩
    rw [readAssignment, if_pos both, (literalRule_iff literal text).mp isLiteral]
    rfl
  · intro isRead
    rw [readAssignment.eq_def] at isRead
    split at isRead
    · next column operator literal =>
        split at isRead
        · next both =>
            obtain ⟨text, isLiteral, _⟩ := Option.map_eq_some_iff.mp isRead
            refine ⟨column.text, text, literal, (literalRule_iff literal text).mpr isLiteral, ?_⟩
            rw [← both.1, ← both.2]
        · cases isRead
    · cases isRead

theorem NameRule.excludes {kind : TokenKind} (notName : kind ≠ .identifier) :
    Excludes kind NameRule := by
  intro tokens name rule
  rw [rule]
  simp [plain, notName]

theorem LiteralRule.excludes {kind : TokenKind} (notNumber : kind ≠ .number)
    (notString : kind ≠ .string) : Excludes kind LiteralRule := by
  rintro tokens text (rule | rule) <;> rw [rule] <;> simp [plain, notNumber, notString]

theorem ColumnDefRule.excludes {kind : TokenKind} (notName : kind ≠ .identifier) :
    Excludes kind ColumnDefRule := by
  rintro tokens attr ⟨typeName, rfl, _⟩
  simp [plain, notName]

theorem AssignmentRule.excludes {kind : TokenKind} (notName : kind ≠ .identifier)
    (notEq : kind ≠ .eq) (notNumber : kind ≠ .number) (notString : kind ≠ .string) :
    Excludes kind AssignmentRule := by
  rintro tokens value ⟨column, text, literal, isLiteral, rfl⟩
  have outside := LiteralRule.excludes notNumber notString literal text isLiteral
  simpa [plain, notName, notEq] using outside

/-! ### The statements -/

def readSelectList (tokens : List Token) : Option (List Bytes) :=
  if tokens = [plain .star] then some [] else readList readName tokens

def readWhere : List Token → Option (Option Condition)
  | [] => some none
  | first :: tokens => if first = plain .where_ then (readCondition tokens).map some else none

theorem selectListRule_iff {tokens : List Token} {columns : List Bytes} :
    SelectListRule tokens columns ↔ readSelectList tokens = some columns := by
  have isList : CommaList NameRule tokens columns ↔ readList readName tokens = some columns :=
    commaList_iff (NameRule.excludes (by decide)) nameRule_iff
  constructor
  · intro rule
    cases rule with
    | all => rfl
    | columns list =>
        have notStar : tokens ≠ [plain .star] := by
          rintro rfl
          have outside : Excludes .star (CommaList NameRule) :=
            CommaList.excludes (by decide) (NameRule.excludes (by decide))
          exact outside _ _ list List.mem_cons_self
        rw [readSelectList, if_neg notStar]
        exact isList.mp list
  · intro isRead
    rw [readSelectList] at isRead
    split at isRead
    · next isStar =>
        cases isRead
        rw [isStar]
        exact .all
    · exact .columns (isList.mpr isRead)

theorem WhereRule.readWhere_eq {tokens : List Token} {whereClause : Option Condition}
    (rule : WhereRule tokens whereClause) : readWhere tokens = some whereClause := by
  cases rule with
  | absent => rfl
  | present condition =>
      rw [readWhere, if_pos rfl, condition.readCondition_eq]
      rfl

theorem whereRule_iff {tokens : List Token} (valued : ∀ token ∈ tokens, Valued token)
    {whereClause : Option Condition} :
    WhereRule tokens whereClause ↔ readWhere tokens = some whereClause := by
  constructor
  · exact WhereRule.readWhere_eq
  · intro isRead
    cases tokens with
    | nil =>
        cases isRead
        exact .absent
    | cons first tokens =>
        obtain ⟨_, rest⟩ := List.forall_mem_cons.mp valued
        rw [readWhere] at isRead
        split at isRead
        · next isWhere =>
            obtain ⟨condition, isCondition, same⟩ := Option.map_eq_some_iff.mp isRead
            cases same
            rw [isWhere]
            exact .present ((readCondition_iff rest).mpr isCondition)
        · cases isRead

/-- Behind `SELECT`. -/
def readSelect (tokens : List Token) : Option SqlStmt := do
  let (selectList, back) ← cut (plain .from_) tokens
  let columns ← readSelectList selectList
  let tableName ← readName (back.take 1)
  let whereClause ← readWhere (back.drop 1)
  return .select ⟨tableName, columns.isEmpty, columns, whereClause⟩

/-- Literals and a closing parenthesis, at the end. -/
def readValueList (tokens : List Token) : Option (List Bytes) := do
  let (literals, back) ← cut (plain .rparen) tokens
  if back = [] then readList readLiteral literals else none

/-- Behind `INSERT INTO table_name`. -/
def readInsert (tableName : Bytes) : List Token → Option SqlStmt
  | ⟨.values, []⟩ :: ⟨.lparen, []⟩ :: tokens => do
      let values ← readValueList tokens
      return .insert (.ofValues tableName values)
  | ⟨.lparen, []⟩ :: tokens => do
      let (names, back) ← cut (plain .rparen) tokens
      match back with
      | ⟨.values, []⟩ :: ⟨.lparen, []⟩ :: tokens =>
          match ← readList readName names with
          | [] => none
          | column :: columns => do
              let values ← readValueList tokens
              return .insert (.ofColumns tableName column columns values)
      | _ => none
  | _ => none

/-- Behind `CREATE TABLE table_name (`. -/
def readCreate (tableName : Bytes) (tokens : List Token) : Option SqlStmt := do
  let (defs, back) ← cut (plain .rparen) tokens
  if back = [] then
    let columns ← readList readColumnDef defs
    return .createTable ⟨tableName, columns⟩
  else none

/-- Behind `UPDATE table_name SET`. -/
def readUpdate (tableName : Bytes) (tokens : List Token) : Option SqlStmt := do
  let assignments := tokens.takeWhile (· ≠ plain .where_)
  let _ ← readList readAssignment assignments
  let whereClause ← readWhere (tokens.drop assignments.length)
  return .update ⟨tableName, [], whereClause.isSome, whereClause⟩

def readStmt : List Token → Option SqlStmt
  | ⟨.select, []⟩ :: tokens => readSelect tokens
  | ⟨.insert, []⟩ :: ⟨.into, []⟩ :: ⟨.identifier, tableName⟩ :: tokens => readInsert tableName tokens
  | ⟨.create, []⟩ :: ⟨.table, []⟩ :: ⟨.identifier, tableName⟩ :: ⟨.lparen, []⟩ :: tokens =>
      readCreate tableName tokens
  | [⟨.drop, []⟩, ⟨.table, []⟩, ⟨.identifier, tableName⟩] => some (.dropTable ⟨tableName⟩)
  | ⟨.delete, []⟩ :: ⟨.from_, []⟩ :: ⟨.identifier, tableName⟩ :: tokens => do
      let whereClause ← readWhere tokens
      return .delete ⟨tableName, whereClause.isSome, whereClause⟩
  | ⟨.update, []⟩ :: ⟨.identifier, tableName⟩ :: ⟨.set, []⟩ :: tokens => readUpdate tableName tokens
  | _ => none

theorem valueList_iff {literals : List Token} {values : List Bytes} :
    CommaList LiteralRule literals values ↔ readList readLiteral literals = some values :=
  commaList_iff (LiteralRule.excludes (by decide) (by decide)) literalRule_iff

theorem columnList_iff {names : List Token} {columns : List Bytes} :
    CommaList NameRule names columns ↔ readList readName names = some columns :=
  commaList_iff (NameRule.excludes (by decide)) nameRule_iff

theorem columnDefList_iff {defs : List Token} {columns : Schema} :
    CommaList ColumnDefRule defs columns ↔ readList readColumnDef defs = some columns :=
  commaList_iff (ColumnDefRule.excludes (by decide)) columnDefRule_iff

theorem assignmentList_iff {assignments : List Token} {assigned : List Unit} :
    CommaList AssignmentRule assignments assigned ↔
      readList readAssignment assignments = some assigned :=
  commaList_iff (AssignmentRule.excludes (by decide) (by decide) (by decide) (by decide))
    assignmentRule_iff

theorem readValueList_iff {tokens : List Token} {values : List Bytes} :
    readValueList tokens = some values ↔
      ∃ literals, tokens = literals ++ [plain .rparen] ∧ CommaList LiteralRule literals values := by
  constructor
  · intro isRead
    obtain ⟨⟨literals, back⟩, isCut, isList⟩ := Option.bind_eq_some_iff.mp isRead
    dsimp only at isList
    split at isList
    · next atEnd =>
        rw [(of_cut isCut).1, atEnd]
        exact ⟨literals, rfl, valueList_iff.mpr isList⟩
    · cases isList
  · rintro ⟨literals, rfl, list⟩
    have noParen : Excludes .rparen (CommaList LiteralRule) :=
      CommaList.excludes (by decide) (LiteralRule.excludes (by decide) (by decide))
    rw [readValueList, cut_append (noParen literals values list) []]
    exact valueList_iff.mp list

/-- Behind the assignments stands nothing, or `WHERE`. -/
theorem takeWhile_assignments {assignments where_ : List Token} {assigned : List Unit}
    {whereClause : Option Condition} (list : CommaList AssignmentRule assignments assigned)
    (rule : WhereRule where_ whereClause) :
    (assignments ++ where_).takeWhile (fun token => decide (token ≠ plain .where_))
      = assignments := by
  have noWhere : Excludes .where_ (CommaList AssignmentRule) := CommaList.excludes (by decide)
    (AssignmentRule.excludes (by decide) (by decide) (by decide) (by decide))
  have passed : ∀ token ∈ assignments, decide (token ≠ plain .where_) = true := by
    intro token member
    rw [decide_eq_true_eq]
    rintro rfl
    exact noWhere assignments assigned list member
  rw [List.takeWhile_append_of_pos passed]
  cases rule with
  | absent => rw [List.takeWhile_nil, List.append_nil]
  | present _ => rw [List.takeWhile_cons_of_neg (by simp), List.append_nil]

/-- **A statement is read from the tokens of its rule.** -/
theorem StmtRule.readStmt_eq {tokens : List Token} {stmt : SqlStmt} (rule : StmtRule tokens stmt) :
    readStmt tokens = some stmt := by
  cases rule with
  | @select selectList where_ columns tableName whereClause list clause =>
      show readSelect (selectList ++ plain .from_ :: ⟨.identifier, tableName⟩ :: where_) = _
      rw [readSelect, cut_append list.noFrom]
      show Option.bind (readSelectList selectList) _ = _
      rw [selectListRule_iff.mp list]
      show Option.bind (readWhere where_) _ = _
      rw [clause.readWhere_eq]
      rfl
  | @insert literals tableName values list =>
      show Option.bind (readValueList (literals ++ [plain .rparen])) _ = _
      rw [readValueList_iff.mpr ⟨literals, rfl, list⟩]
      rfl
  | @insertColumns names literals tableName column columns values list valueList =>
      have noParen : Excludes .rparen (CommaList NameRule) :=
        CommaList.excludes (by decide) (NameRule.excludes (by decide))
      simp only [List.cons_append, List.append_assoc]
      show Option.bind (cut (plain .rparen) (names ++ plain .rparen :: plain .values ::
        plain .lparen :: (literals ++ [plain .rparen]))) _ = _
      rw [cut_append (noParen names _ list), Option.bind_some]
      show Option.bind (readList readName names) _ = _
      rw [columnList_iff.mp list, Option.bind_some]
      show Option.bind (readValueList (literals ++ [plain .rparen])) _ = _
      rw [readValueList_iff.mpr ⟨literals, rfl, valueList⟩]
      rfl
  | @create defs tableName columns list =>
      have noParen : Excludes .rparen (CommaList ColumnDefRule) :=
        CommaList.excludes (by decide) (ColumnDefRule.excludes (by decide))
      show readCreate tableName (defs ++ [plain .rparen]) = _
      rw [readCreate, cut_append (noParen defs columns list) []]
      show Option.bind (readList readColumnDef defs) _ = _
      rw [columnDefList_iff.mp list]
      rfl
  | drop => rfl
  | delete clause =>
      show Option.bind (readWhere _) _ = _
      rw [clause.readWhere_eq]
      rfl
  | @update assignments where_ tableName assigned whereClause list clause =>
      show readUpdate tableName (assignments ++ where_) = _
      rw [readUpdate, takeWhile_assignments list clause, assignmentList_iff.mp list,
        List.drop_left' rfl, clause.readWhere_eq]
      rfl

theorem select_of_read {tokens : List Token} (valued : ∀ token ∈ tokens, Valued token)
    {stmt : SqlStmt} (isRead : readSelect tokens = some stmt) :
    StmtRule (plain .select :: tokens) stmt := by
  obtain ⟨⟨selectList, back⟩, isCut, isRead⟩ := Option.bind_eq_some_iff.mp isRead
  obtain ⟨columns, isColumns, isRead⟩ := Option.bind_eq_some_iff.mp isRead
  obtain ⟨tableName, isName, isRead⟩ := Option.bind_eq_some_iff.mp isRead
  obtain ⟨whereClause, isWhere, same⟩ := Option.bind_eq_some_iff.mp isRead
  cases same
  have isTokens := (of_cut isCut).1
  have isTable : back.take 1 = [⟨.identifier, tableName⟩] := (nameRule_iff _ _).mpr isName
  have behind : ∀ token ∈ back.drop 1, Valued token := by
    intro token member
    refine valued token ?_
    rw [isTokens]
    exact List.mem_append_right _ (List.mem_cons_of_mem _ (List.mem_of_mem_drop member))
  have rule := @StmtRule.select _ _ _ tableName _ (selectListRule_iff.mpr isColumns)
    ((whereRule_iff behind).mpr isWhere)
  rw [isTokens, ← List.take_append_drop 1 back, isTable]
  exact rule

theorem insert_of_read {tableName : Bytes} {tokens : List Token} {stmt : SqlStmt}
    (isRead : readInsert tableName tokens = some stmt) :
    StmtRule (plain .insert :: plain .into :: ⟨.identifier, tableName⟩ :: tokens) stmt := by
  rw [readInsert.eq_def] at isRead
  split at isRead
  · obtain ⟨values, isValues, same⟩ := Option.bind_eq_some_iff.mp isRead
    cases same
    obtain ⟨literals, rfl, list⟩ := readValueList_iff.mp isValues
    exact .insert list
  · obtain ⟨⟨names, back⟩, isCut, isRead⟩ := Option.bind_eq_some_iff.mp isRead
    rw [(of_cut isCut).1]
    dsimp only at isRead
    split at isRead
    · obtain ⟨columns, isColumns, isRead⟩ := Option.bind_eq_some_iff.mp isRead
      cases columns with
      | nil => cases isRead
      | cons column columns =>
          obtain ⟨values, isValues, same⟩ := Option.bind_eq_some_iff.mp isRead
          cases same
          obtain ⟨literals, rfl, list⟩ := readValueList_iff.mp isValues
          have rule := @StmtRule.insertColumns _ _ tableName _ _ _
            (columnList_iff.mpr isColumns) list
          simp only [List.cons_append, List.append_assoc] at rule
          exact rule
    · cases isRead
  · cases isRead

theorem create_of_read {tableName : Bytes} {tokens : List Token} {stmt : SqlStmt}
    (isRead : readCreate tableName tokens = some stmt) :
    StmtRule (plain .create :: plain .table :: ⟨.identifier, tableName⟩ :: plain .lparen :: tokens)
      stmt := by
  obtain ⟨⟨defs, back⟩, isCut, isRead⟩ := Option.bind_eq_some_iff.mp isRead
  dsimp only at isRead
  split at isRead
  · next atEnd =>
      obtain ⟨columns, isColumns, same⟩ := Option.bind_eq_some_iff.mp isRead
      cases same
      rw [(of_cut isCut).1, atEnd]
      exact .create (columnDefList_iff.mpr isColumns)
  · cases isRead

theorem update_of_read {tableName : Bytes} {tokens : List Token}
    (valued : ∀ token ∈ tokens, Valued token) {stmt : SqlStmt}
    (isRead : readUpdate tableName tokens = some stmt) :
    StmtRule (plain .update :: ⟨.identifier, tableName⟩ :: plain .set :: tokens) stmt := by
  obtain ⟨assigned, isAssigned, isRead⟩ := Option.bind_eq_some_iff.mp isRead
  obtain ⟨whereClause, isWhere, same⟩ := Option.bind_eq_some_iff.mp isRead
  cases same
  generalize isFront : tokens.takeWhile (fun token => decide (token ≠ plain .where_)) = front
    at isAssigned isWhere
  have isTokens : front ++ tokens.drop front.length = tokens := by
    rw [← isFront]
    exact (List.prefix_append_drop (List.takeWhile_prefix _)).symm
  have rule := @StmtRule.update _ _ tableName _ _ (assignmentList_iff.mpr isAssigned)
    ((whereRule_iff fun token member => valued token (List.mem_of_mem_drop member)).mpr isWhere)
  rw [List.cons_append, List.cons_append, List.cons_append, isTokens] at rule
  exact rule

/-- **The rules build from the tokens the statement that is read.** -/
theorem readStmt_iff {tokens : List Token} (valued : ∀ token ∈ tokens, Valued token)
    {stmt : SqlStmt} : StmtRule tokens stmt ↔ readStmt tokens = some stmt := by
  constructor
  · exact StmtRule.readStmt_eq
  · intro isRead
    rw [readStmt.eq_def] at isRead
    split at isRead
    · exact select_of_read (List.forall_mem_cons.mp valued).2 isRead
    · exact insert_of_read isRead
    · exact create_of_read isRead
    · cases isRead
      exact .drop
    · obtain ⟨whereClause, isWhere, same⟩ := Option.bind_eq_some_iff.mp isRead
      cases same
      refine .delete ((whereRule_iff fun token member => valued token ?_).mpr isWhere)
      exact List.mem_cons_of_mem _ (List.mem_cons_of_mem _ (List.mem_cons_of_mem _ member))
    · refine update_of_read (fun token member => valued token ?_) isRead
      exact List.mem_cons_of_mem _ (List.mem_cons_of_mem _ (List.mem_cons_of_mem _ member))
    · cases isRead

/-! ### Queries -/

/-- Each statement up to its semicolon, and nothing behind the last one. -/
def readStmts (tokens : List Token) : Option (List SqlStmt) :=
  let parts := tokens.splitOn (plain .semicolon)
  if parts.getLast? = some [] then parts.dropLast.mapM readStmt else none

/-- `parse_sql_string`. -/
def parseSqlString (str : Bytes) : Option (List SqlStmt) := readStmts (tokens (cString str))

theorem readStmts_iff {tokens : List Token} (valued : ∀ token ∈ tokens, Valued token)
    {stmts : List SqlStmt} : StmtListRule tokens stmts ↔ readStmts tokens = some stmts := by
  rw [stmtListRule_iff]
  constructor
  · rintro ⟨parts, rfl, each⟩
    have noSemicolon : ∀ part ∈ parts, plain .semicolon ∉ part :=
      ((List.forall₂_and_left parts stmts).mp
        (each.imp fun part stmt rule => ⟨rule.noSemicolon, rule⟩)).1
    rw [readStmts, splitOn_terminated noSemicolon, List.getLast?_concat, if_pos rfl,
      List.dropLast_concat]
    exact mapM_eq_some_iff.mpr (each.imp fun part stmt => StmtRule.readStmt_eq)
  · intro isRead
    rw [readStmts] at isRead
    split at isRead
    · next atEnd =>
        obtain ⟨parts, isParts⟩ : ∃ parts, tokens.splitOn (plain .semicolon) = parts ++ [[]] :=
          ⟨_, (List.dropLast_append_getLast? [] atEnd).symm⟩
        rw [isParts, List.dropLast_concat] at isRead
        have isTokens := of_splitOn_terminated isParts
        have partsValued : ∀ part ∈ parts, ∀ token ∈ part, Valued token := by
          intro part isPart token member
          refine valued token ?_
          rw [isTokens]
          exact List.mem_flatMap.mpr ⟨part, isPart, List.mem_append_left _ member⟩
        have each := (List.forall₂_and_left parts stmts).mpr
          ⟨partsValued, mapM_eq_some_iff.mp isRead⟩
        exact ⟨parts, isTokens, each.imp fun part stmt both => (readStmt_iff both.1).mpr both.2⟩
    · cases isRead

/-- **A query is parsed in one way at most**, and `parseSqlString` finds it. -/
theorem parse_iff (str : Bytes) (stmts : List SqlStmt) :
    ParseSqlString str stmts ↔ parseSqlString str = some stmts :=
  readStmts_iff (tokens_valued _)

end Parser

end Yadb
