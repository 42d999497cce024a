/-
**How a condition is grouped.**

The tokens of a condition are read from left to right. Inside each pair of parentheses at most two
conditions wait for their right sides: one for an `AND`, and one for the `OR` around it.

* `readToken`: what one token does.
* `ConditionRule.readTokens_eq`: the tokens of a condition are read as it, so that it is the only
  condition that the rules build from them (`ConditionRule.unique`).
-/

import Yadb.Sql.Parser

namespace Yadb

open Lexer

namespace Parser

/-! ### Reading a condition from left to right -/

/-- The conditions that wait for the right side of their `OR` and of their `AND`. -/
structure Waiting where
  orLeft : Option Condition
  andLeft : Option Condition

def joined (left : Option Condition) (op : LogicalOp) (right : Condition) : Condition :=
  match left with
  | none => right
  | some left => .logical left op right

def Waiting.close (waiting : Waiting) (condition : Condition) : Condition :=
  joined waiting.orLeft .or (joined waiting.andLeft .and condition)

/-- What has been read of the condition at hand. -/
inductive Part
  | nothing
  | operand (left : Operand)
  | comparison (left : Operand) (op : ComparisonOp)
  | whole (condition : Condition)

/-- What waits inside the innermost parentheses, and what waits outside of them. -/
structure Reading where
  part : Part
  waiting : Waiting
  outer : List Waiting

def operandOf (token : Token) : Option Operand :=
  match token.kind with
  | .identifier => some (.column token.text)
  | .number | .string => some (.literal token.text)
  | _ => none

def comparisonOf : TokenKind → Option ComparisonOp
  | .eq => some .eq
  | .neq => some .neq
  | .lt => some .lt
  | .gt => some .gt
  | .le => some .le
  | .ge => some .ge
  | _ => none

/-- `OR` closes what waits for an `AND`, a parenthesis closes what waits since its counterpart. -/
def readToken (reading : Reading) (token : Token) : Option Reading :=
  match reading.part with
  | .nothing =>
      if token.kind = .lparen then
        some ⟨.nothing, ⟨none, none⟩, reading.waiting :: reading.outer⟩
      else (operandOf token).map fun left => ⟨.operand left, reading.waiting, reading.outer⟩
  | .operand left => (comparisonOf token.kind).map fun op =>
      ⟨.comparison left op, reading.waiting, reading.outer⟩
  | .comparison left op => (operandOf token).map fun right =>
      ⟨.whole (.comparison left op right), reading.waiting, reading.outer⟩
  | .whole condition =>
      match token.kind, reading.outer with
      | .and, outer => some ⟨.nothing, ⟨reading.waiting.orLeft,
          some (joined reading.waiting.andLeft .and condition)⟩, outer⟩
      | .or, outer => some ⟨.nothing, ⟨some (reading.waiting.close condition), none⟩, outer⟩
      | .rparen, waiting :: outer => some ⟨.whole (reading.waiting.close condition), waiting, outer⟩
      | _, _ => none

def readTokens (reading : Reading) (tokens : List Token) : Option Reading :=
  tokens.foldlM readToken reading

theorem readTokens_append (reading : Reading) (front back : List Token) :
    readTokens reading (front ++ back) = (readTokens reading front).bind (readTokens · back) :=
  List.foldlM_append

theorem readTokens_cons (reading : Reading) (token : Token) (back : List Token) :
    readTokens reading (token :: back) = (readToken reading token).bind (readTokens · back) :=
  rfl

theorem operandRule_some {tokens : List Token} {operand : Operand}
    (rule : OperandRule tokens operand) :
    ∃ token, tokens = [token] ∧ token.kind ≠ .lparen ∧ operandOf token = some operand := by
  cases operand with
  | column name => exact ⟨_, rule, nofun, rfl⟩
  | literal text => rcases rule with rule | rule <;> exact ⟨_, rule, nofun, rfl⟩

theorem comparisonOf_comparisonToken (op : ComparisonOp) :
    comparisonOf (comparisonToken op) = some op := by
  cases op <;> rfl

/-- What a condition of the level leaves to wait, before anything has waited. -/
def Leaves (level : Level) (condition : Condition) (before after : Waiting)
    (last : Condition) : Prop :=
  match level with
  | .operand => after = before ∧ last = condition
  | .and => after.orLeft = before.orLeft ∧ joined after.andLeft .and last = condition
  | .or => after.close last = condition

theorem readTokens_comparison {left right : List Token} {leftOperand rightOperand : Operand}
    {op : ComparisonOp} (leftRule : OperandRule left leftOperand)
    (rightRule : OperandRule right rightOperand) (waiting : Waiting) (outer : List Waiting) :
    readTokens ⟨.nothing, waiting, outer⟩ (left ++ plain (comparisonToken op) :: right)
      = some ⟨.whole (.comparison leftOperand op rightOperand), waiting, outer⟩ := by
  obtain ⟨leftToken, rfl, notParen, isLeft⟩ := operandRule_some leftRule
  obtain ⟨rightToken, rfl, _, isRight⟩ := operandRule_some rightRule
  have readLeft : readToken ⟨.nothing, waiting, outer⟩ leftToken
      = some ⟨.operand leftOperand, waiting, outer⟩ := by
    rw [readToken, if_neg notParen, isLeft]
    rfl
  have readOp : readToken ⟨.operand leftOperand, waiting, outer⟩ (plain (comparisonToken op))
      = some ⟨.comparison leftOperand op, waiting, outer⟩ := by
    rw [readToken, plain, comparisonOf_comparisonToken]
    rfl
  have readRight : readToken ⟨.comparison leftOperand op, waiting, outer⟩ rightToken
      = some ⟨.whole (.comparison leftOperand op rightOperand), waiting, outer⟩ := by
    rw [readToken, isRight]
    rfl
  rw [List.singleton_append, readTokens_cons, readLeft, Option.bind_some, readTokens_cons,
    readOp, Option.bind_some, readTokens_cons, readRight]
  rfl

/-- **The tokens of a condition are read as it.** -/
theorem ConditionRule.readTokens_eq {level : Level} {tokens : List Token} {condition : Condition}
    (rule : ConditionRule level tokens condition) (waiting : Waiting) (outer : List Waiting)
    (fresh : level ≠ .operand → waiting.andLeft = none)
    (freshOr : level = .or → waiting.orLeft = none) :
    ∃ after last, Leaves level condition waiting after last ∧
      readTokens ⟨.nothing, waiting, outer⟩ tokens = some ⟨.whole last, after, outer⟩ := by
  induction rule generalizing waiting outer with
  | comparison leftRule rightRule =>
      exact ⟨waiting, _, ⟨rfl, rfl⟩, readTokens_comparison leftRule rightRule waiting outer⟩
  | @parens tokens condition _ ih =>
      obtain ⟨after, last, closes, isRead⟩ := ih ⟨none, none⟩ (waiting :: outer) (fun _ => rfl)
        (fun _ => rfl)
      refine ⟨waiting, condition, ⟨rfl, rfl⟩, ?_⟩
      have opens : readToken ⟨.nothing, waiting, outer⟩ (plain .lparen)
          = some ⟨.nothing, ⟨none, none⟩, waiting :: outer⟩ := rfl
      have closing : readToken ⟨.whole last, after, waiting :: outer⟩ (plain .rparen)
          = some ⟨.whole (after.close last), waiting, outer⟩ := rfl
      have closes : after.close last = condition := closes
      rw [List.cons_append, readTokens_cons, opens, Option.bind_some, readTokens_append, isRead,
        Option.bind_some, readTokens_cons, closing, closes]
      rfl
  | @ofOperand tokens condition _ ih =>
      obtain ⟨after, last, ⟨rfl, rfl⟩, isRead⟩ := ih waiting outer (absurd rfl ·) nofun
      refine ⟨after, last, ⟨rfl, ?_⟩, isRead⟩
      rw [fresh nofun, joined]
  | @and left right first second _ _ ihLeft ihRight =>
      obtain ⟨after, last, ⟨sameOr, isFirst⟩, readLeft⟩ := ihLeft waiting outer fresh nofun
      have between : readToken ⟨.whole last, after, outer⟩ (plain .and)
          = some ⟨.nothing, ⟨after.orLeft, some (joined after.andLeft .and last)⟩, outer⟩ := rfl
      obtain ⟨after', last', ⟨rfl, rfl⟩, readRight⟩ := ihRight
        ⟨after.orLeft, some (joined after.andLeft .and last)⟩ outer (absurd rfl ·) nofun
      refine ⟨⟨after.orLeft, some (joined after.andLeft .and last)⟩, last', ⟨sameOr, ?_⟩, ?_⟩
      · exact congrArg (Condition.logical · .and last') isFirst
      · rw [readTokens_append, readLeft, Option.bind_some, readTokens_cons, between,
          Option.bind_some, readRight]
  | @ofAnd tokens condition _ ih =>
      obtain ⟨after, last, ⟨sameOr, isCondition⟩, isRead⟩ := ih waiting outer (fun _ => fresh nofun)
        nofun
      refine ⟨after, last, ?_, isRead⟩
      show joined after.orLeft .or (joined after.andLeft .and last) = condition
      rw [sameOr, freshOr rfl, isCondition, joined]
  | @or left right first second _ _ ihLeft ihRight =>
      obtain ⟨after, last, isFirst, readLeft⟩ := ihLeft waiting outer fresh freshOr
      have isFirst : after.close last = first := isFirst
      have between : readToken ⟨.whole last, after, outer⟩ (plain .or)
          = some ⟨.nothing, ⟨some (after.close last), none⟩, outer⟩ := rfl
      obtain ⟨after', last', ⟨sameOr, isSecond⟩, readRight⟩ := ihRight
        ⟨some (after.close last), none⟩ outer (fun _ => rfl) nofun
      refine ⟨after', last', ?_, ?_⟩
      · show joined after'.orLeft .or (joined after'.andLeft .and last') = _
        rw [sameOr, isSecond, isFirst, joined]
      · rw [readTokens_append, readLeft, Option.bind_some, readTokens_cons, between,
          Option.bind_some, readRight]

/-- **A condition is grouped in one way.** -/
theorem ConditionRule.unique {tokens : List Token} {condition condition' : Condition}
    (rule : ConditionRule .or tokens condition) (rule' : ConditionRule .or tokens condition') :
    condition = condition' := by
  obtain ⟨after, last, isCondition, isRead⟩ := rule.readTokens_eq ⟨none, none⟩ [] (fun _ => rfl)
    (fun _ => rfl)
  obtain ⟨after', last', isCondition', isRead'⟩ := rule'.readTokens_eq ⟨none, none⟩ []
    (fun _ => rfl) (fun _ => rfl)
  rw [isRead] at isRead'
  injection isRead' with same
  injection same with sameLast sameAfter
  injection sameLast with sameLast
  have isCondition : after.close last = condition := isCondition
  have isCondition' : after'.close last' = condition' := isCondition'
  rw [← isCondition, ← isCondition', sameLast, sameAfter]

end Parser

end Yadb
