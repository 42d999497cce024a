/-
**The lexer.**

The rules of `Lexer.l`, with the longest match and the first rule of it, as flex takes them. A rule
skips its lexeme, hands a token to the parser, or is the last one, which prints the character and
goes on.

* `Stray`: the input starts with a character that no other rule can take: one that starts no lexeme,
  a `!` without a `=`, a `-` without a digit, or a quote that is not closed.
* `munch_lexRules`: the last rule is taken exactly at a stray character.
* `reproduces_iff`: the lexemes that are handed to the parser, with blanks between them, are the
  whole input exactly if the lexer comes to no stray character.
-/

import Yadb.Core.Datatypes
import Yadb.Foundation.Lexing

namespace Yadb

open Foundation RegularExpression

namespace Lexer

inductive TokenKind
  | select | from_ | where_ | insert | into | values | create | table | drop | delete | update | set
  | and | or
  | star | lparen | rparen | comma | semicolon
  | eq | neq | lt | gt | le | ge
  | identifier | string | number
  deriving DecidableEq

/-- A token with its semantic value, empty where it has none. -/
structure Token where
  kind : TokenKind
  text : Bytes
  deriving DecidableEq

inductive LexAction
  | skip
  | token (kind : TokenKind)
  /-- `std::cerr << "Unexpected character: "`. -/
  | unexpected
  deriving DecidableEq

/-! ### Character classes -/

def byte (character : Char) : UInt8 := UInt8.ofNat character.toNat

def bytesFrom (first count : Nat) : List UInt8 :=
  (List.range count).map fun index => UInt8.ofNat (first + index)

/-- `[ \t\n]`. -/
def blanks : List UInt8 := [32, 9, 10]

/-- `[a-zA-Z_]`. -/
def letters : List UInt8 := bytesFrom 97 26 ++ bytesFrom 65 26 ++ [95]

/-- `[0-9]`. -/
def digits : List UInt8 := bytesFrom 48 10

/-- A letter of a pattern stands for both cases. -/
def anyCase (letter : UInt8) : List UInt8 :=
  if 65 ≤ letter ∧ letter ≤ 90 then [letter, letter + 32] else [letter]

/-- `'`. -/
def quote : UInt8 := 39

def allBut (excluded : UInt8) : List UInt8 := (bytesFrom 0 256).filter fun other => other ≠ excluded

/-! ### The rules -/

def literal (text : List Char) : RegularExpression UInt8 :=
  sequence (text.map fun character => oneOf (anyCase (byte character)))

/-- The keywords and the operators, in their order. -/
def literals : List (List Char × TokenKind) :=
  [(['S', 'E', 'L', 'E', 'C', 'T'], .select), (['F', 'R', 'O', 'M'], .from_),
    (['W', 'H', 'E', 'R', 'E'], .where_), (['I', 'N', 'S', 'E', 'R', 'T'], .insert),
    (['I', 'N', 'T', 'O'], .into), (['V', 'A', 'L', 'U', 'E', 'S'], .values),
    (['C', 'R', 'E', 'A', 'T', 'E'], .create), (['T', 'A', 'B', 'L', 'E'], .table),
    (['D', 'R', 'O', 'P'], .drop), (['D', 'E', 'L', 'E', 'T', 'E'], .delete),
    (['U', 'P', 'D', 'A', 'T', 'E'], .update), (['S', 'E', 'T'], .set), (['A', 'N', 'D'], .and),
    (['O', 'R'], .or), (['*'], .star), (['('], .lparen), ([')'], .rparen), ([','], .comma),
    ([';'], .semicolon), (['='], .eq), (['!', '='], .neq), (['<'], .lt), (['>'], .gt),
    (['<', '='], .le), (['>', '='], .ge)]

def blankRule : LexRule UInt8 LexAction := ⟨oneOrMore (oneOf blanks), .skip⟩

/-- `[a-zA-Z_][a-zA-Z0-9_]*`. -/
def identifierPattern : RegularExpression UInt8 := oneOf letters * star (oneOf (letters ++ digits))

/-- `-?[0-9]+(\.[0-9]+)?([eE][-+]?[0-9]+)?`. -/
def numberPattern : RegularExpression UInt8 :=
  perhaps (oneOf [45]) * (oneOrMore (oneOf digits) *
    (perhaps (oneOf [46] * oneOrMore (oneOf digits)) *
      perhaps (oneOf [101, 69] * (perhaps (oneOf [45, 43]) * oneOrMore (oneOf digits)))))

/-- `'[^']*'`. -/
def stringPattern : RegularExpression UInt8 :=
  oneOf [quote] * (star (oneOf (allBut quote)) * oneOf [quote])

/-- The rules but for the last one. -/
def tokenRules : List (LexRule UInt8 LexAction) :=
  blankRule :: (literals.map fun entry => ⟨literal entry.1, .token entry.2⟩) ++
    [⟨identifierPattern, .token .identifier⟩, ⟨numberPattern, .token .number⟩,
      ⟨stringPattern, .token .string⟩]

/-- `.`: every character but a newline. -/
def lastRule : LexRule UInt8 LexAction := ⟨oneOf (allBut 10), .unexpected⟩

def lexRules : List (LexRule UInt8 LexAction) := tokenRules ++ [lastRule]

/-! ### The scanner -/

abbrev SqlLexeme : Type := Lexeme UInt8 LexAction

def lexemes (input : Bytes) : List SqlLexeme := scan lexRules input.length input

/-- The token is handed to the parser. -/
def isHanded (lexeme : SqlLexeme) : Bool :=
  match lexeme.action with
  | .token _ => true
  | .skip | .unexpected => false

/-- The lexemes that are handed to the parser. -/
def handed (input : Bytes) : List Bytes := ((lexemes input).filter isHanded).map Lexeme.text

/-- `yylval`: strings lose their quotes. -/
def semanticText (kind : TokenKind) (text : Bytes) : Bytes :=
  match kind with
  | .identifier | .number => text
  | .string => (text.drop 1).take (text.length - 2)
  | _ => []

def tokenOf (lexeme : SqlLexeme) : Option Token :=
  match lexeme.action with
  | .token kind => some ⟨kind, semanticText kind lexeme.text⟩
  | .skip | .unexpected => none

/-- What `yylex` returns, call by call. -/
def tokens (input : Bytes) : List Token := (lexemes input).filterMap tokenOf

/-- The blanks between the lexemes. -/
def IsBlank (character : UInt8) : Prop := character ∈ blanks

instance : DecidablePred IsBlank := fun character => inferInstanceAs (Decidable (character ∈ blanks))

/-- The lexemes that are handed to the parser are the input, but for blanks between them. -/
def Reproduces (input : Bytes) : Prop := Interleaves IsBlank (handed input) input

/-! ### Stray characters -/

/-- The characters that start a lexeme, whatever follows. -/
def starters : List UInt8 :=
  blanks ++ letters ++ digits ++ ['*', '(', ')', ',', ';', '=', '<', '>'].map byte

/-- The first character of the input belongs to no token and is no blank. -/
def Stray : Bytes → Prop
  | [] => False
  | first :: rest => first ∉ starters ∧ ¬ (first = 33 ∧ rest.head? = some 61) ∧
      ¬ (first = 45 ∧ ∃ digit ∈ digits, rest.head? = some digit) ∧
      ¬ (first = quote ∧ quote ∈ rest)

theorem blank_starter {character : UInt8} (blank : character ∈ blanks) : character ∈ starters :=
  List.mem_append_left _ (List.mem_append_left _ (List.mem_append_left _ blank))

theorem letter_starter {character : UInt8} (letter : character ∈ letters) :
    character ∈ starters :=
  List.mem_append_left _ (List.mem_append_left _ (List.mem_append_right _ letter))

theorem digit_starter {character : UInt8} (digit : character ∈ digits) : character ∈ starters :=
  List.mem_append_left _ (List.mem_append_right _ digit)

theorem mem_bytesFrom (character : UInt8) : character ∈ bytesFrom 0 256 := by
  refine List.mem_map.mpr ⟨character.toNat, List.mem_range.mpr character.toNat_lt, ?_⟩
  rw [Nat.zero_add, UInt8.ofNat_toNat]

theorem mem_allBut {character excluded : UInt8} (different : character ≠ excluded) :
    character ∈ allBut excluded :=
  List.mem_filter.mpr ⟨mem_bytesFrom character, by simpa using different⟩

/-- What a literal matches starts with its first letter, in one of its cases. -/
theorem of_mem_literal {first : Char} {rest : List Char} {word : Bytes}
    (matched : word ∈ (literal (first :: rest)).matches') :
    ∃ symbol ∈ anyCase (byte first), ∃ tail ∈ (literal rest).matches', word = symbol :: tail :=
  head_of_mem_oneOf_mul matched

theorem mem_anyCase (letter : UInt8) : letter ∈ anyCase letter := by
  rw [anyCase]
  split <;> exact List.mem_cons_self

/-- A literal matches its text. -/
theorem mem_literal (text : List Char) : text.map byte ∈ (literal text).matches' := by
  induction text with
  | nil => exact rfl
  | cons first rest ih => exact cons_mem_oneOf_mul (mem_anyCase (byte first)) ih

/-- Every literal but `!=` starts with a character that starts a lexeme anywhere. -/
theorem literals_start : ∀ entry ∈ literals, entry.1 = ['!', '='] ∨
    (entry.1.head?.map fun first => (anyCase (byte first)).all (· ∈ starters)) = some true := by
  decide

theorem literal_not_stray {entry : List Char × TokenKind} (member : entry ∈ literals) {word : Bytes}
    (matched : word ∈ (literal entry.1).matches') (rest : Bytes) : ¬ Stray (word ++ rest) := by
  rcases literals_start entry member with isNeq | starts
  · rw [isNeq] at matched
    obtain ⟨first, isFirst, tail, isTail, rfl⟩ := of_mem_literal matched
    obtain ⟨second, isSecond, tail, _, rfl⟩ := of_mem_literal isTail
    have isBang : first = 33 := List.mem_singleton.mp isFirst
    have isEquals : second = 61 := List.mem_singleton.mp isSecond
    subst isBang isEquals
    exact fun stray => stray.2.1 ⟨rfl, rfl⟩
  · obtain ⟨text, kind⟩ := entry
    dsimp only at starts matched
    cases text with
    | nil => cases starts
    | cons first text =>
        obtain ⟨symbol, isSymbol, tail, _, rfl⟩ := of_mem_literal matched
        have all := Option.some.inj starts
        have starter := of_decide_eq_true (List.all_eq_true.mp all symbol isSymbol)
        exact fun stray => stray.1 starter

theorem identifier_not_stray {word : Bytes} (matched : word ∈ identifierPattern.matches')
    (rest : Bytes) : ¬ Stray (word ++ rest) := by
  obtain ⟨first, isFirst, tail, _, rfl⟩ := head_of_mem_oneOf_mul matched
  exact fun stray => stray.1 (letter_starter isFirst)

theorem number_not_stray {word : Bytes} (matched : word ∈ numberPattern.matches') (rest : Bytes) :
    ¬ Stray (word ++ rest) := by
  obtain ⟨sign, isSign, number, isNumber, rfl⟩ := mem_mul_iff.mp matched
  obtain ⟨whole, isWhole, further, _, rfl⟩ := mem_mul_iff.mp isNumber
  obtain ⟨digit, isDigit, others, _, rfl⟩ := head_of_mem_oneOf_mul isWhole
  rcases mem_perhaps.mp isSign with minus | none_
  · obtain ⟨symbol, isSymbol, rfl⟩ := mem_oneOf.mp minus
    rw [List.mem_singleton.mp isSymbol]
    exact fun stray => stray.2.2.1 ⟨rfl, digit, isDigit, rfl⟩
  · rw [none_]
    exact fun stray => stray.1 (digit_starter isDigit)

theorem string_not_stray {word : Bytes} (matched : word ∈ stringPattern.matches') (rest : Bytes) :
    ¬ Stray (word ++ rest) := by
  obtain ⟨first, isFirst, tail, isTail, rfl⟩ := head_of_mem_oneOf_mul matched
  obtain ⟨inner, _, last, isLast, rfl⟩ := mem_mul_iff.mp isTail
  obtain ⟨close, isClose, rfl⟩ := mem_oneOf.mp isLast
  have isQuote : first = quote := List.mem_singleton.mp isFirst
  have closes : close = quote := List.mem_singleton.mp isClose
  refine fun stray => stray.2.2.2 ⟨isQuote, ?_⟩
  rw [closes]
  exact List.mem_append_left rest (List.mem_append_right inner List.mem_cons_self)

theorem blank_of_match {word : Bytes} (matched : word ∈ blankRule.pattern.matches') :
    ∀ character ∈ word, IsBlank character := by
  obtain ⟨first, isFirst, tail, isTail, rfl⟩ := head_of_mem_oneOf_mul matched
  exact List.forall_mem_cons.mpr ⟨isFirst, of_mem_star_oneOf isTail⟩

theorem blank_not_stray {word : Bytes} (matched : word ∈ blankRule.pattern.matches') (rest : Bytes) :
    ¬ Stray (word ++ rest) := by
  obtain ⟨first, isFirst, tail, _, rfl⟩ := head_of_mem_oneOf_mul matched
  exact fun stray => stray.1 (blank_starter isFirst)

/-- **No rule but the last takes a stray character.** -/
theorem not_stray_of_match {rule : LexRule UInt8 LexAction} (member : rule ∈ tokenRules)
    {word : Bytes} (matched : word ∈ rule.pattern.matches') (rest : Bytes) :
    ¬ Stray (word ++ rest) := by
  rcases List.mem_append.mp member with member | member
  · rcases List.mem_cons.mp member with rfl | member
    · exact blank_not_stray matched rest
    · obtain ⟨entry, isEntry, rfl⟩ := List.mem_map.mp member
      exact literal_not_stray isEntry matched rest
  · rcases List.mem_cons.mp member with rfl | member
    · exact identifier_not_stray matched rest
    · rcases List.mem_cons.mp member with rfl | member
      · exact number_not_stray matched rest
      · rw [List.mem_singleton.mp member] at matched
        exact string_not_stray matched rest

/-- What the rules but the last do. -/
theorem action_tokenRules {rule : LexRule UInt8 LexAction} (member : rule ∈ tokenRules) :
    rule = blankRule ∨ ∃ kind, rule.action = .token kind := by
  rcases List.mem_append.mp member with member | member
  · rcases List.mem_cons.mp member with rfl | member
    · exact Or.inl rfl
    · obtain ⟨entry, _, rfl⟩ := List.mem_map.mp member
      exact Or.inr ⟨entry.2, rfl⟩
  · rcases List.mem_cons.mp member with rfl | member
    · exact Or.inr ⟨.identifier, rfl⟩
    · rcases List.mem_cons.mp member with rfl | member
      · exact Or.inr ⟨.number, rfl⟩
      · rw [List.mem_singleton.mp member]
        exact Or.inr ⟨.string, rfl⟩

theorem mem_tokenRules_literal {entry : List Char × TokenKind} (member : entry ∈ literals) :
    (⟨literal entry.1, .token entry.2⟩ : LexRule UInt8 LexAction) ∈ tokenRules :=
  List.mem_append_left _ (List.mem_cons_of_mem _ (List.mem_map.mpr ⟨entry, member, rfl⟩))

theorem symbols_literal : ∀ symbol ∈ ['*', '(', ')', ',', ';', '=', '<', '>'].map byte,
    literals.any (fun entry => entry.1.map byte = [symbol]) = true := by
  decide +kernel

theorem digits_mem_number {front : Bytes} (isFront : front ∈ (perhaps (oneOf [45])).matches')
    {digit : UInt8} (isDigit : digit ∈ digits) : front ++ [digit] ∈ numberPattern.matches' := by
  have whole : [digit] ∈ (oneOrMore (oneOf digits)).matches' :=
    cons_mem_oneOf_mul isDigit (Language.nil_mem_kstar _)
  refine mem_mul_iff.mpr ⟨front, isFront, [digit], ?_, rfl⟩
  refine mem_mul_iff.mpr ⟨[digit], whole, [], ?_, rfl⟩
  exact mem_mul_iff.mpr ⟨[], nil_mem_perhaps _, [], nil_mem_perhaps _, rfl⟩

/-- A character that starts a lexeme, whatever follows. -/
theorem match_of_starter {first : UInt8} (starter : first ∈ starters) :
    ∃ rule ∈ tokenRules, [first] ∈ rule.pattern.matches' := by
  rcases List.mem_append.mp starter with starter | symbol
  · rcases List.mem_append.mp starter with starter | digit
    · rcases List.mem_append.mp starter with blank | letter
      · exact ⟨blankRule, List.mem_append_left _ List.mem_cons_self,
          cons_mem_oneOf_mul blank (Language.nil_mem_kstar _)⟩
      · exact ⟨_, List.mem_append_right _ List.mem_cons_self,
          cons_mem_oneOf_mul letter (Language.nil_mem_kstar _)⟩
    · exact ⟨_, List.mem_append_right _ (List.mem_cons_of_mem _ List.mem_cons_self),
        digits_mem_number (nil_mem_perhaps _) digit⟩
  · obtain ⟨entry, isEntry, spelled⟩ := List.any_eq_true.mp (symbols_literal first symbol)
    refine ⟨_, mem_tokenRules_literal isEntry, ?_⟩
    rw [← of_decide_eq_true spelled]
    exact mem_literal entry.1

/-- A string that is closed. -/
theorem mem_string {inner : Bytes} (noQuote : quote ∉ inner) :
    quote :: (inner ++ [quote]) ∈ stringPattern.matches' := by
  refine cons_mem_oneOf_mul List.mem_cons_self (mem_mul_iff.mpr ⟨inner, ?_, [quote], ?_, rfl⟩)
  · refine mem_star_oneOf fun character member => mem_allBut ?_
    rintro rfl
    exact noQuote member
  · exact mem_oneOf.mpr ⟨quote, List.mem_cons_self, rfl⟩

/-- **A character that is not stray starts a lexeme of another rule.** -/
theorem match_of_not_stray {first : UInt8} {rest : Bytes} (notStray : ¬ Stray (first :: rest)) :
    ∃ rule ∈ tokenRules, ∃ length, length + 1 ≤ (first :: rest).length ∧
      (first :: rest).take (length + 1) ∈ rule.pattern.matches' := by
  have cases_ : first ∈ starters ∨ (first = 33 ∧ rest.head? = some 61) ∨
      (first = 45 ∧ ∃ digit ∈ digits, rest.head? = some digit) ∨ (first = quote ∧ quote ∈ rest) := by
    by_contra none_
    rw [not_or, not_or, not_or] at none_
    exact notStray none_
  rcases cases_ with starter | ⟨rfl, isHead⟩ | ⟨rfl, digit, isDigit, isHead⟩ | ⟨rfl, closed⟩
  · obtain ⟨rule, member, matched⟩ := match_of_starter starter
    exact ⟨rule, member, 0, Nat.succ_le_succ (Nat.zero_le _), matched⟩
  · obtain ⟨rest, rfl⟩ : ∃ after, rest = 61 :: after := List.head?_eq_some_iff.mp isHead
    have isNeq : (['!', '='], TokenKind.neq) ∈ literals := by decide
    exact ⟨_, mem_tokenRules_literal isNeq, 1, Nat.succ_le_succ (Nat.succ_le_succ (Nat.zero_le _)),
      mem_literal ['!', '=']⟩
  · obtain ⟨rest, rfl⟩ : ∃ after, rest = digit :: after := List.head?_eq_some_iff.mp isHead
    refine ⟨_, List.mem_append_right _ (List.mem_cons_of_mem _ List.mem_cons_self), 1,
      Nat.succ_le_succ (Nat.succ_le_succ (Nat.zero_le _)), ?_⟩
    have minus : [45] ∈ (perhaps (oneOf [(45 : UInt8)])).matches' :=
      Or.inl (mem_oneOf.mpr ⟨45, List.mem_cons_self, rfl⟩)
    exact digits_mem_number minus isDigit
  · obtain ⟨inner, after, rfl, noQuote⟩ := List.eq_append_cons_of_mem closed
    have isTaken : (quote :: (inner ++ quote :: after)).take (inner.length + 1 + 1)
        = quote :: (inner ++ [quote]) := by
      rw [List.take_succ_cons, List.take_length_add_append]
      rfl
    refine ⟨⟨stringPattern, .token .string⟩, ?_, inner.length + 1, ?_, ?_⟩
    · exact List.mem_append_right _
        (List.mem_cons_of_mem _ (List.mem_cons_of_mem _ List.mem_cons_self))
    · rw [List.length_cons, List.length_append, List.length_cons]
      omega
    · rw [isTaken]
      exact mem_string noQuote

/-- The last rule takes one character. -/
theorem lastRule_length {input : Bytes} {length : Nat}
    (found : longestMatch lastRule.pattern input = some length) : length ≤ 1 := by
  obtain ⟨inside, matched⟩ := longestMatch_matches found
  obtain ⟨character, _, isTaken⟩ := mem_oneOf.mp matched
  have isLength := congrArg List.length isTaken
  rw [List.length_take, List.length_singleton] at isLength
  omega

/-- The last rule stands behind the others. -/
theorem before_lastRule {before after : List (LexRule UInt8 LexAction)}
    {rule : LexRule UInt8 LexAction} (split : lexRules = before ++ rule :: after)
    (unexpected : rule.action = .unexpected) : before = tokenRules ∧ rule = lastRule := by
  rcases List.append_eq_append_iff.mp split with ⟨middle, isBefore, isLast⟩ | ⟨middle, isRules, isRest⟩
  · cases middle with
    | nil =>
        rw [List.nil_append] at isLast
        rw [List.append_nil] at isBefore
        exact ⟨isBefore, (List.cons.inj isLast).1.symm⟩
    | cons first middle =>
        have tooLong := congrArg List.length isLast
        simp only [List.length_append, List.length_cons, List.length_nil] at tooLong
        omega
  · cases middle with
    | nil =>
        rw [List.nil_append] at isRest
        rw [List.append_nil] at isRules
        exact ⟨isRules.symm, (List.cons.inj isRest).1⟩
    | cons first middle =>
        have isFirst : rule = first := (List.cons.inj isRest).1
        have member : rule ∈ tokenRules := by
          rw [isRules, isFirst]
          exact List.mem_append_right before List.mem_cons_self
        rcases action_tokenRules member with rfl | ⟨kind, isToken⟩
        · cases unexpected
        · cases isToken.symm.trans unexpected

/-- **The last rule is taken exactly at a stray character**, and some rule is taken everywhere. -/
theorem munch_lexRules {input : Bytes} (notEmpty : input ≠ []) : ∃ length action,
    munch lexRules input = some (length + 1, action) ∧
      (action = .unexpected ↔ Stray input) := by
  cases input with
  | nil => exact absurd rfl notEmpty
  | cons first rest =>
      by_cases stray : Stray (first :: rest)
      · have notNewline : first ≠ 10 := by
          rintro rfl
          exact stray.1 (by decide)
        have matched : (first :: rest).take 1 ∈ lastRule.pattern.matches' :=
          mem_oneOf.mpr ⟨first, mem_allBut notNewline, rfl⟩
        obtain ⟨one, found, atLeast⟩ := longestMatch_ge (Nat.succ_le_succ (Nat.zero_le _)) matched
        have isRule : lastRule ∈ lexRules := List.mem_append_right tokenRules List.mem_cons_self
        obtain ⟨length, action, taken, above⟩ := munch_isSome isRule found
        obtain ⟨length, rfl⟩ : ∃ fewer, length = fewer + 1 := ⟨length - 1, by omega⟩
        refine ⟨length, action, taken, iff_of_true ?_ stray⟩
        obtain ⟨before, rule, after, isRules, isAction, found, _, _⟩ := munch_some taken
        have member : rule ∈ lexRules := by
          rw [isRules]
          exact List.mem_append_right before List.mem_cons_self
        rcases List.mem_append.mp member with isToken | isLast
        · have notStray := not_stray_of_match isToken (longestMatch_matches found).2
            ((first :: rest).drop (length + 1))
          rw [List.take_append_drop] at notStray
          exact absurd stray notStray
        · rw [← isAction, List.mem_singleton.mp isLast]
          rfl
      · obtain ⟨rule, member, length', inside, matched⟩ := match_of_not_stray stray
        obtain ⟨longest, found, atLeast⟩ := longestMatch_ge inside matched
        have isRule : rule ∈ lexRules := List.mem_append_left [lastRule] member
        obtain ⟨length, action, taken, above⟩ := munch_isSome isRule found
        obtain ⟨length, rfl⟩ : ∃ fewer, length = fewer + 1 := ⟨length - 1, by omega⟩
        refine ⟨length, action, taken, iff_of_false (fun unexpected => ?_) stray⟩
        obtain ⟨before, last, after, isRules, isAction, lastFound, earlier, _⟩ := munch_some taken
        obtain ⟨rfl, rfl⟩ := before_lastRule isRules (isAction.trans unexpected)
        have shorter := earlier rule member longest found
        have one := lastRule_length lastFound
        omega

/-! ### What reaches the parser -/

/-- **What a lexeme of the input can be**: blanks, a token, or a stray character. -/
theorem lexeme_cases {input : Bytes} {lexeme : SqlLexeme} (member : lexeme ∈ lexemes input) :
    (¬ Stray lexeme.ahead ∧ isHanded lexeme = false ∧ ∀ character ∈ lexeme.text, IsBlank character) ∨
      (¬ Stray lexeme.ahead ∧ isHanded lexeme = true) ∨
      (Stray lexeme.ahead ∧ isHanded lexeme = false ∧ ∃ character ∈ lexeme.text,
        ¬ IsBlank character) := by
  obtain ⟨length, taken, isText⟩ := scan_munch member
  obtain ⟨before, rule, after, isRules, isAction, found, _, _⟩ := munch_some taken
  obtain ⟨inside, matched⟩ := longestMatch_matches found
  have notEmpty : lexeme.ahead ≠ [] := by
    intro isEmpty
    rw [isEmpty] at inside
    exact Nat.not_succ_le_zero _ inside
  obtain ⟨_, action, taken', isUnexpected⟩ := munch_lexRules notEmpty
  rw [taken, Option.some.injEq, Prod.mk.injEq] at taken'
  obtain ⟨_, rfl⟩ := taken'
  have isRule : rule ∈ lexRules := by
    rw [isRules]
    exact List.mem_append_right before List.mem_cons_self
  rcases List.mem_append.mp isRule with isToken | isLast
  · rcases action_tokenRules isToken with rfl | ⟨kind, isKind⟩
    · have skips : lexeme.action = .skip := isAction.symm
      refine Or.inl ⟨fun stray => ?_, ?_, ?_⟩
      · cases skips.symm.trans (isUnexpected.mpr stray)
      · rw [isHanded, skips]
      · rw [isText]
        exact blank_of_match matched
    · have hands : lexeme.action = .token kind := isAction.symm.trans isKind
      refine Or.inr (Or.inl ⟨fun stray => ?_, ?_⟩)
      · cases hands.symm.trans (isUnexpected.mpr stray)
      · rw [isHanded, hands]
  · have isUnexpectedAction : lexeme.action = .unexpected := by
      rw [← isAction, List.mem_singleton.mp isLast]
      rfl
    have stray := isUnexpected.mp isUnexpectedAction
    refine Or.inr (Or.inr ⟨stray, ?_, ?_⟩)
    · rw [isHanded, isUnexpectedAction]
    · cases isAhead : lexeme.ahead with
      | nil => exact absurd isAhead notEmpty
      | cons first rest =>
          rw [isAhead] at stray isText
          refine ⟨first, ?_, fun blank => stray.1 (blank_starter blank)⟩
          rw [isText]
          exact List.mem_cons_self

/-- The lexemes make up the input. -/
theorem flatMap_lexemes (input : Bytes) : (lexemes input).flatMap Lexeme.text = input := by
  refine scan_flatten (Nat.le_refl _) fun rest notEmpty => ?_
  obtain ⟨length, action, taken, _⟩ := munch_lexRules notEmpty
  exact ⟨length, action, taken⟩

/-- **The lexemes that are handed to the parser are the input, but for blanks,** exactly if the
lexer comes to no stray character. -/
theorem reproduces_iff (input : Bytes) :
    Reproduces input ↔ ∀ lexeme ∈ lexemes input, ¬ Stray lexeme.ahead := by
  have interleaves := @interleaves_iff UInt8 IsBlank _ SqlLexeme isHanded Lexeme.text (lexemes input)
  rw [flatMap_lexemes] at interleaves
  refine interleaves.trans (forall₂_congr fun lexeme member => ?_)
  rcases lexeme_cases member with
    ⟨notStray, _, blank⟩ | ⟨notStray, isHanded_⟩ | ⟨stray, notHanded, character, inText, notBlank⟩
  · exact iff_of_true (fun _ => blank) notStray
  · refine iff_of_true (fun notHanded => ?_) notStray
    cases isHanded_.symm.trans notHanded
  · exact iff_of_false (fun blank => notBlank (blank notHanded character inText)) (not_not.mpr stray)

end Lexer

end Yadb
