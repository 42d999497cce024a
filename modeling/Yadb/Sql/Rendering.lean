/-
**What is written for tokens.**

Words for the tokens with blanks between them, and what the lexer reads there.

* `Renders`: the words of some tokens, with a run of blanks behind each. Keywords are in any case.
* `Token.Printable`: a name that is no keyword, or a text with neither a quote nor a NUL.
* `munch_word`, `munch_string`, `munch_blanks`: the lexeme at a word, and at a run of blanks.
* `tokens_of_renders`: the lexer reads the tokens that were written.
-/

import Yadb.Sql.Parser

namespace Yadb

open Foundation RegularExpression

namespace Lexer

/-! ### The words of a token -/

/-- An identifier that is no keyword in any case. -/
structure IsName (name : Bytes) : Prop where
  pattern : name ∈ identifierPattern.matches'
  noKeyword : ∀ entry ∈ literals, equalsIgnoreCase name (entry.1.map byte) = false

/-- A token that can be written: a name that is no keyword, a text with neither a quote nor a NUL,
or a keyword or an operator, which have no text. Texts are written in quotes, so never as numbers. -/
def Token.Printable (token : Token) : Prop :=
  match token.kind with
  | .identifier => IsName token.text
  | .string => quote ∉ token.text ∧ 0 ∉ token.text
  | .number => False
  | _ => token.text = []

/-- The word stands for the token: a keyword in any case, an operator, a name, or a text in
quotes. -/
inductive Spells : Token → Bytes → Prop
  | literal {entry : List Char × TokenKind} {word : Bytes} : entry ∈ literals →
      word ∈ (literal entry.1).matches' → Spells ⟨entry.2, []⟩ word
  | identifier (name : Bytes) : Spells ⟨.identifier, name⟩ name
  | string (text : Bytes) : Spells ⟨.string, text⟩ (quote :: (text ++ [quote]))

/-- The input goes on with a blank, or ends. -/
def Spaced (rest : Bytes) : Prop := ∀ character ∈ rest.head?, IsBlank character

/-- The words of the tokens, with one blank or more between them. -/
inductive Renders : List Token → Bytes → Prop
  | nil : Renders [] []
  | blank {tokens : List Token} {character : UInt8} {rest : Bytes} : IsBlank character →
      Renders tokens rest → Renders tokens (character :: rest)
  | word {token : Token} {tokens : List Token} {word rest : Bytes} : Spells token word →
      Spaced rest → Renders tokens rest → Renders (token :: tokens) (word ++ rest)

/-- A word for the token. -/
def spelling (token : Token) : Bytes :=
  match token.kind with
  | .identifier => token.text
  | .string => quote :: (token.text ++ [quote])
  | kind => ((literals.find? fun entry => entry.2 = kind).map fun entry =>
      entry.1.map byte).getD []

/-- The words with a space behind each. -/
def printed (tokens : List Token) : Bytes := tokens.flatMap fun token => spelling token ++ [32]

theorem literals_noValue : ∀ entry ∈ literals, entry.2 ≠ .identifier ∧ entry.2 ≠ .string ∧
    entry.2 ≠ .number := by
  decide

theorem spelling_literal : ∀ entry ∈ literals, spelling ⟨entry.2, []⟩ = entry.1.map byte := by
  decide

theorem spelling_spells {token : Token} (printable : token.Printable) :
    Spells token (spelling token) := by
  obtain ⟨kind, text⟩ := token
  have known : kind = .identifier ∨ kind = .string ∨ kind = .number ∨
      kind ∈ literals.map Prod.snd := by
    cases kind <;> decide
  rcases known with rfl | rfl | rfl | isLiteral
  · exact .identifier text
  · exact .string text
  · exact absurd printable not_false
  · obtain ⟨entry, member, rfl⟩ := List.mem_map.mp isLiteral
    obtain ⟨notName, notString, notNumber⟩ := literals_noValue entry member
    have noText : text = [] := by
      unfold Token.Printable at printable
      split at printable
      · next isName => exact absurd isName notName
      · next isString => exact absurd isString notString
      · next isNumber => exact absurd isNumber notNumber
      · exact printable
    rw [noText, spelling_literal entry member]
    exact .literal member (mem_literal entry.1)

theorem printed_renders {tokens : List Token} (printable : ∀ token ∈ tokens, token.Printable) :
    Renders tokens (printed tokens) := by
  induction tokens with
  | nil => exact .nil
  | cons token tokens ih =>
      obtain ⟨first, rest⟩ := List.forall_mem_cons.mp printable
      have spaced : Spaced (32 :: printed tokens) := by
        intro character isFirst
        rw [← Option.some.inj isFirst]
        exact List.mem_cons_self
      have split : printed (token :: tokens) = spelling token ++ (32 :: printed tokens) := by
        rw [printed, List.flatMap_cons, List.append_assoc]
        rfl
      rw [split]
      exact .word (spelling_spells first) spaced (.blank List.mem_cons_self (ih rest))

/-! ### What a rule can match -/

theorem lower_anyCase : ∀ letter : UInt8, ∀ symbol ∈ anyCase letter,
    toLower symbol = toLower letter := by
  intro letter symbol member
  unfold anyCase at member
  split at member
  · next upper =>
      rcases List.mem_cons.mp member with rfl | member
      · rfl
      · rw [List.mem_singleton.mp member]
        have bounds : 65 ≤ letter.toNat ∧ letter.toNat ≤ 90 := by
          obtain ⟨low, high⟩ := upper
          rw [UInt8.le_iff_toNat_le] at low high
          exact ⟨low, high⟩
        have raised : (letter + 32).toNat = letter.toNat + 32 := by
          rw [UInt8.toNat_add, show (32 : UInt8).toNat = 32 from rfl]
          omega
        have notUpper : ¬ (65 ≤ letter + 32 ∧ letter + 32 ≤ 90) := by
          rw [UInt8.le_iff_toNat_le, UInt8.le_iff_toNat_le, raised]
          rw [show (90 : UInt8).toNat = 90 from rfl]
          omega
        rw [toLower, if_neg notUpper, toLower, if_pos upper]
  · rw [List.mem_singleton.mp member]

/-- What a literal matches is its text in some case. -/
theorem lower_literal {text : List Char} {word : Bytes} (matched : word ∈ (literal text).matches') :
    word.map toLower = (text.map byte).map toLower := by
  induction text generalizing word with
  | nil =>
      have empty : word = [] := matched
      rw [empty]
      rfl
  | cons first text ih =>
      obtain ⟨symbol, isSymbol, tail, isTail, rfl⟩ := of_mem_literal matched
      rw [List.map_cons, List.map_cons, List.map_cons, ih isTail, lower_anyCase _ symbol isSymbol]

/-- What a literal matches has its letters only, in some case. -/
theorem case_of_mem_literal {text : List Char} {word : Bytes}
    (matched : word ∈ (literal text).matches') :
    ∀ symbol ∈ word, ∃ character ∈ text, symbol ∈ anyCase (byte character) := by
  induction text generalizing word with
  | nil =>
      have empty : word = [] := matched
      rw [empty]
      exact nofun
  | cons first text ih =>
      obtain ⟨symbol, isSymbol, tail, isTail, rfl⟩ := of_mem_literal matched
      refine List.forall_mem_cons.mpr ⟨⟨first, List.mem_cons_self, isSymbol⟩, ?_⟩
      intro other member
      obtain ⟨character, inside, isCase⟩ := ih isTail other member
      exact ⟨character, List.mem_cons_of_mem first inside, isCase⟩

/-- A literal has neither blanks nor NULs in it. -/
theorem literal_plain {entry : List Char × TokenKind} (member : entry ∈ literals) {word : Bytes}
    (matched : word ∈ (literal entry.1).matches') : ∀ symbol ∈ word, symbol ∉ 0 :: blanks := by
  have plain : (literals.all fun entry => entry.1.all fun character =>
      (anyCase (byte character)).all fun symbol => ¬ (0 :: blanks).contains symbol) = true := by
    decide +kernel
  intro symbol inside
  obtain ⟨character, isCharacter, isCase⟩ := case_of_mem_literal matched symbol inside
  have here := List.all_eq_true.mp (List.all_eq_true.mp (List.all_eq_true.mp plain entry member)
    character isCharacter) symbol isCase
  intro isMember
  exact of_decide_eq_true here (List.contains_iff_mem.mpr isMember)

theorem letters_plain : ∀ symbol ∈ letters ++ digits, symbol ∉ 0 :: blanks := by decide +kernel

theorem identifier_plain {word : Bytes} (matched : word ∈ identifierPattern.matches') :
    ∀ symbol ∈ word, symbol ∉ 0 :: blanks := by
  obtain ⟨first, isFirst, tail, isTail, rfl⟩ := head_of_mem_oneOf_mul matched
  refine List.forall_mem_cons.mpr ⟨letters_plain first (List.mem_append_left digits isFirst), ?_⟩
  exact fun symbol member => letters_plain symbol (of_mem_star_oneOf isTail symbol member)

/-- What the last rules but the blanks start with. -/
theorem first_number {word : Bytes} (matched : word ∈ numberPattern.matches') :
    ∃ first tail, word = first :: tail ∧ first ∈ (45 : UInt8) :: digits := by
  obtain ⟨sign, isSign, number, isNumber, rfl⟩ := mem_mul_iff.mp matched
  obtain ⟨whole, isWhole, further, _, rfl⟩ := mem_mul_iff.mp isNumber
  obtain ⟨digit, isDigit, others, _, rfl⟩ := head_of_mem_oneOf_mul isWhole
  rcases mem_perhaps.mp isSign with minus | rfl
  · obtain ⟨symbol, isSymbol, rfl⟩ := mem_oneOf.mp minus
    rw [List.mem_singleton.mp isSymbol]
    exact ⟨45, _, rfl, List.mem_cons_self⟩
  · exact ⟨digit, _, rfl, List.mem_cons_of_mem 45 isDigit⟩

theorem first_literal {entry : List Char × TokenKind} (member : entry ∈ literals) {word : Bytes}
    (matched : word ∈ (literal entry.1).matches') :
    ∃ first tail, word = first :: tail ∧ first ∉ quote :: 45 :: blanks ++ digits := by
  have starts : ∀ entry ∈ literals, (entry.1.head?.map fun first =>
      (anyCase (byte first)).all (· ∉ quote :: 45 :: blanks ++ digits)) = some true := by
    decide +kernel
  obtain ⟨text, kind⟩ := entry
  have start := starts _ member
  dsimp only at start matched
  cases text with
  | nil => cases start
  | cons first text =>
      obtain ⟨symbol, isSymbol, tail, _, rfl⟩ := of_mem_literal matched
      have all := Option.some.inj start
      exact ⟨symbol, tail, rfl, of_decide_eq_true (List.all_eq_true.mp all symbol isSymbol)⟩

theorem first_identifier {word : Bytes} (matched : word ∈ identifierPattern.matches') :
    ∃ first tail, word = first :: tail ∧ first ∉ quote :: 45 :: blanks ++ digits := by
  have apart : ∀ first ∈ letters, first ∉ quote :: 45 :: blanks ++ digits := by decide +kernel
  obtain ⟨first, isFirst, tail, _, rfl⟩ := head_of_mem_oneOf_mul matched
  exact ⟨first, tail, rfl, apart first isFirst⟩

theorem first_string {word : Bytes} (matched : word ∈ stringPattern.matches') :
    ∃ inner, quote ∉ inner ∧ word = quote :: (inner ++ [quote]) := by
  obtain ⟨first, isFirst, tail, isTail, rfl⟩ := head_of_mem_oneOf_mul matched
  obtain ⟨inner, isInner, last, isLast, rfl⟩ := mem_mul_iff.mp isTail
  obtain ⟨close, isClose, rfl⟩ := mem_oneOf.mp isLast
  rw [List.mem_singleton.mp isFirst, List.mem_singleton.mp isClose]
  refine ⟨inner, fun member => ?_, rfl⟩
  have different := (List.mem_filter.mp (of_mem_star_oneOf isInner quote member)).2
  exact absurd rfl (of_decide_eq_true different)

theorem first_blanks {word : Bytes} (matched : word ∈ blankRule.pattern.matches') :
    ∃ first tail, word = first :: tail ∧ ∀ symbol ∈ word, symbol ∈ blanks := by
  obtain ⟨first, isFirst, tail, isTail, rfl⟩ := head_of_mem_oneOf_mul matched
  exact ⟨first, tail, rfl, List.forall_mem_cons.mpr ⟨isFirst, of_mem_star_oneOf isTail⟩⟩

/-! ### The rules of the words -/

/-- The rules of the keywords, the operators and the names. -/
def wordRules : List (LexRule UInt8 LexAction) :=
  (literals.map fun entry => ⟨literal entry.1, .token entry.2⟩) ++
    [⟨identifierPattern, .token .identifier⟩]

theorem lexRules_eq : lexRules = blankRule :: wordRules ++
    [⟨numberPattern, .token .number⟩, ⟨stringPattern, .token .string⟩, lastRule] := rfl

theorem lexRules_cases {rule : LexRule UInt8 LexAction} (member : rule ∈ lexRules) :
    rule = blankRule ∨ rule ∈ wordRules ∨ rule = ⟨numberPattern, .token .number⟩ ∨
      rule = ⟨stringPattern, .token .string⟩ ∨ rule = lastRule := by
  rw [lexRules_eq] at member
  simpa [or_assoc] using member

theorem first_word {rule : LexRule UInt8 LexAction} (member : rule ∈ wordRules) {word : Bytes}
    (matched : word ∈ rule.pattern.matches') :
    ∃ first tail, word = first :: tail ∧ first ∉ quote :: 45 :: blanks ++ digits := by
  rcases List.mem_append.mp member with isLiteral | isName
  · obtain ⟨entry, isEntry, rfl⟩ := List.mem_map.mp isLiteral
    exact first_literal isEntry matched
  · cases List.mem_singleton.mp isName
    exact first_identifier matched

theorem word_plain {rule : LexRule UInt8 LexAction} (member : rule ∈ wordRules) {word : Bytes}
    (matched : word ∈ rule.pattern.matches') : ∀ symbol ∈ word, symbol ∉ 0 :: blanks := by
  rcases List.mem_append.mp member with isLiteral | isName
  · obtain ⟨entry, isEntry, rfl⟩ := List.mem_map.mp isLiteral
    exact literal_plain isEntry matched
  · cases List.mem_singleton.mp isName
    exact identifier_plain matched

/-! ### The lexeme at a word -/

variable {word rest : Bytes} {length : Nat}

/-- A match without blanks ends with the word. -/
theorem length_le_of_plain (spaced : Spaced rest) (inside : length ≤ (word ++ rest).length)
    (plain : ∀ symbol ∈ (word ++ rest).take length, symbol ∉ 0 :: blanks) :
    length ≤ word.length := by
  by_contra longer
  rw [List.length_append] at inside
  cases rest with
  | nil =>
      rw [List.length_nil] at inside
      omega
  | cons first rest =>
      refine plain first ?_ (List.mem_cons_of_mem 0 (spaced first rfl))
      obtain ⟨more, rfl⟩ : ∃ more, length = word.length + (more + 1) :=
        ⟨length - word.length - 1, by omega⟩
      rw [List.take_length_add_append, List.take_succ_cons]
      exact List.mem_append_right word List.mem_cons_self

theorem lastRule_le {input : Bytes} (matched : input.take length ∈ lastRule.pattern.matches')
    (inside : length ≤ input.length) : length ≤ 1 := by
  obtain ⟨character, _, isTaken⟩ := mem_oneOf.mp matched
  have isLength := congrArg List.length isTaken
  rw [List.length_take, List.length_singleton] at isLength
  omega

/-- What a match starts with. -/
theorem head_of_take {first : UInt8} {tail taken : Bytes}
    (isTaken : (first :: tail).take length = taken) {symbol : UInt8} {others : Bytes}
    (starts : taken = symbol :: others) : symbol = first := by
  cases length with
  | zero =>
      rw [starts] at isTaken
      cases isTaken
  | succ length =>
      rw [List.take_succ_cons, starts] at isTaken
      exact (List.cons.inj isTaken).1.symm

/-- **No rule matches more than a keyword or an identifier.** -/
theorem match_le {first : UInt8} {tail : Bytes} (plain : first ∉ quote :: 45 :: blanks ++ digits)
    (spaced : Spaced rest) {rule : LexRule UInt8 LexAction} (member : rule ∈ lexRules)
    (inside : length ≤ ((first :: tail) ++ rest).length)
    (matched : ((first :: tail) ++ rest).take length ∈ rule.pattern.matches') :
    length ≤ (first :: tail).length := by
  rcases lexRules_cases member with rfl | isWord | rfl | rfl | rfl
  · obtain ⟨symbol, others, isTaken, all⟩ := first_blanks matched
    have isBlank := all symbol (isTaken ▸ List.mem_cons_self)
    rw [head_of_take rfl isTaken] at isBlank
    exact absurd (List.mem_append_left digits (List.mem_cons_of_mem _
      (List.mem_cons_of_mem _ isBlank))) plain
  · exact length_le_of_plain spaced inside (word_plain isWord matched)
  · obtain ⟨symbol, others, isTaken, isNumber⟩ := first_number matched
    rw [head_of_take rfl isTaken] at isNumber
    refine absurd ?_ plain
    rcases List.mem_cons.mp isNumber with rfl | isDigit
    · exact List.mem_append_left digits (List.mem_cons_of_mem _ List.mem_cons_self)
    · exact List.mem_append_right (quote :: 45 :: blanks) isDigit
  · obtain ⟨inner, _, isTaken⟩ := first_string matched
    have isFirst := head_of_take rfl isTaken
    exact absurd (List.mem_append_left digits (isFirst ▸ List.mem_cons_self)) plain
  · have one := lastRule_le matched inside
    rw [List.length_cons]
    omega

/-- **The first rule that matches the word takes it.** -/
theorem munch_word {before after : List (LexRule UInt8 LexAction)} {rule : LexRule UInt8 LexAction}
    (isRules : lexRules = before ++ rule :: after)
    (starts : ∃ first tail, word = first :: tail ∧ first ∉ quote :: 45 :: blanks ++ digits)
    (spaced : Spaced rest) (matched : word ∈ rule.pattern.matches')
    (earlier : ∀ other ∈ before, word ∉ other.pattern.matches') :
    munch lexRules (word ++ rest) = some (word.length, rule.action) := by
  obtain ⟨first, tail, rfl, plain⟩ := starts
  have upTo : ∀ other ∈ lexRules, ∀ shorter ≤ ((first :: tail) ++ rest).length,
      ((first :: tail) ++ rest).take shorter ∈ other.pattern.matches' →
        shorter ≤ (first :: tail).length :=
    fun other member shorter inside => match_le plain spaced member inside
  rw [isRules] at upTo ⊢
  refine munch_eq ?_ ?_ (fun other member shorter inside isMatch => ?_) fun other member =>
    upTo other (List.mem_append_right before member)
  · rw [List.length_append]
    exact Nat.le_add_right _ _
  · rw [List.take_left']
    · exact matched
    · rfl
  · refine Nat.lt_of_le_of_ne (upTo other (List.mem_append_left _ member) shorter inside isMatch) ?_
    rintro rfl
    rw [List.take_left'] at isMatch
    · exact earlier other member isMatch
    · rfl

/-- A keyword or an operator. -/
theorem munch_literal {entry : List Char × TokenKind} (member : entry ∈ literals)
    (matched : word ∈ (literal entry.1).matches') (spaced : Spaced rest) :
    munch lexRules (word ++ rest) = some (word.length, .token entry.2) := by
  have distinct : literals.Pairwise fun first second =>
      (first.1.map byte).map toLower ≠ (second.1.map byte).map toLower := by decide +kernel
  obtain ⟨before, after, split⟩ := List.append_of_mem member
  let rule (entry : List Char × TokenKind) : LexRule UInt8 LexAction :=
    ⟨literal entry.1, .token entry.2⟩
  have isRules : lexRules = (blankRule :: before.map rule) ++ rule entry :: (after.map rule ++
      [⟨identifierPattern, .token .identifier⟩, ⟨numberPattern, .token .number⟩,
        ⟨stringPattern, .token .string⟩] ++ [lastRule]) := by
    rw [lexRules, tokenRules, split, List.map_append, List.map_cons]
    simp only [List.cons_append, List.append_assoc, rule]
  have starts := first_literal member matched
  refine munch_word isRules starts spaced matched (List.forall_mem_cons.mpr ⟨?_, ?_⟩)
  · intro blank
    obtain ⟨first, tail, rfl, plain⟩ := starts
    obtain ⟨_, _, _, all⟩ := first_blanks blank
    exact plain (List.mem_append_left digits (List.mem_cons_of_mem _
      (List.mem_cons_of_mem _ (all first List.mem_cons_self))))
  · intro other isOther isMatch
    obtain ⟨entry', isEntry, rfl⟩ := List.mem_map.mp isOther
    rw [split] at distinct
    have apart := (List.pairwise_append.mp distinct).2.2 entry' isEntry entry List.mem_cons_self
    exact apart ((lower_literal isMatch).symm.trans (lower_literal matched))

/-- An identifier. -/
theorem munch_identifier {name : Bytes} (isName : IsName name) (spaced : Spaced rest) :
    munch lexRules (name ++ rest) = some (name.length, .token .identifier) := by
  have isRules : lexRules = (blankRule :: literals.map fun entry =>
      ⟨literal entry.1, .token entry.2⟩) ++ ⟨identifierPattern, .token .identifier⟩ ::
        [⟨numberPattern, .token .number⟩, ⟨stringPattern, .token .string⟩, lastRule] := rfl
  have starts := first_identifier isName.pattern
  refine munch_word isRules starts spaced isName.pattern (List.forall_mem_cons.mpr ⟨?_, ?_⟩)
  · intro blank
    obtain ⟨first, tail, rfl, plain⟩ := starts
    obtain ⟨_, _, _, all⟩ := first_blanks blank
    exact plain (List.mem_append_left digits (List.mem_cons_of_mem _
      (List.mem_cons_of_mem _ (all first List.mem_cons_self))))
  · intro other isOther isMatch
    obtain ⟨entry, isEntry, rfl⟩ := List.mem_map.mp isOther
    have different := isName.noKeyword entry isEntry
    rw [equalsIgnoreCase, lower_literal isMatch] at different
    exact absurd rfl (of_decide_eq_false different)

/-- A string. -/
theorem munch_string {text : Bytes} (noQuote : quote ∉ text) (rest : Bytes) :
    munch lexRules ((quote :: (text ++ [quote])) ++ rest)
      = some ((quote :: (text ++ [quote])).length, .token .string) := by
  have isRules : lexRules = (blankRule :: wordRules ++ [⟨numberPattern, .token .number⟩]) ++
      ⟨stringPattern, .token .string⟩ :: [lastRule] := rfl
  have apart : quote ∉ blanks ∧ quote ∉ (45 : UInt8) :: digits := by decide +kernel
  rw [isRules]
  refine munch_eq ?_ ?_ (fun other member shorter inside isMatch => ?_)
    (fun other member shorter inside isMatch => ?_)
  · rw [List.length_append]
    exact Nat.le_add_right _ _
  · rw [List.take_left']
    · exact mem_string noQuote
    · rfl
  · -- no other token starts with a quote
    exfalso
    rw [List.cons_append] at isMatch
    rcases List.mem_append.mp member with member | isNumber
    · rcases List.mem_cons.mp member with rfl | isWord
      · obtain ⟨symbol, others, isTaken, all⟩ := first_blanks isMatch
        have isFirst := head_of_take rfl isTaken
        exact apart.1 (isFirst ▸ all symbol (isTaken ▸ List.mem_cons_self))
      · obtain ⟨symbol, others, isTaken, plain⟩ := first_word isWord isMatch
        have isFirst := head_of_take rfl isTaken
        exact plain (List.mem_append_left digits (isFirst ▸ List.mem_cons_self))
    · rw [List.mem_singleton.mp isNumber] at isMatch
      obtain ⟨symbol, others, isTaken, isNumber⟩ := first_number isMatch
      have isFirst := head_of_take rfl isTaken
      exact apart.2 (isFirst ▸ isNumber)
  · rcases List.mem_cons.mp member with rfl | member
    · -- the string ends with its second quote
      obtain ⟨inner, noQuote', isTaken⟩ := first_string isMatch
      have whole := List.take_append_drop shorter ((quote :: (text ++ [quote])) ++ rest)
      rw [isTaken, List.cons_append, List.cons_append, List.append_assoc, List.append_assoc,
        List.singleton_append, List.singleton_append] at whole
      have sameText : inner = text := (split_first noQuote' noQuote (List.cons.inj whole).2).1
      have isLength := congrArg List.length isTaken
      rw [List.length_take, sameText] at isLength
      omega
    · rw [List.mem_singleton.mp member] at isMatch
      have one := lastRule_le isMatch inside
      rw [List.length_cons]
      omega

/-- Blanks. -/
theorem munch_blanks {run : Bytes} (notEmpty : run ≠ [])
    (all : ∀ character ∈ run, IsBlank character)
    (ends : ∀ character ∈ rest.head?, ¬ IsBlank character) :
    munch lexRules (run ++ rest) = some (run.length, .skip) := by
  obtain ⟨first, run, rfl⟩ := List.exists_cons_of_ne_nil notEmpty
  obtain ⟨firstBlank, runBlank⟩ := List.forall_mem_cons.mp all
  have notPlain : first ∈ quote :: 45 :: blanks ++ digits :=
    List.mem_append_left digits (List.mem_cons_of_mem _ (List.mem_cons_of_mem _ firstBlank))
  have apart : ∀ symbol ∈ blanks, symbol ≠ quote ∧ symbol ∉ (45 : UInt8) :: digits := by
    decide +kernel
  have isRules : lexRules = [] ++ blankRule :: (wordRules ++
      [⟨numberPattern, .token .number⟩, ⟨stringPattern, .token .string⟩, lastRule]) := rfl
  rw [isRules]
  refine munch_eq ?_ ?_ nofun (fun other member shorter inside isMatch => ?_)
  · rw [List.length_append]
    exact Nat.le_add_right _ _
  · rw [List.take_left']
    · exact cons_mem_oneOf_mul firstBlank (mem_star_oneOf runBlank)
    · rfl
  · rcases List.mem_cons.mp member with rfl | member
    · -- blanks end where the input goes on without one
      obtain ⟨_, _, _, onlyBlanks⟩ := first_blanks isMatch
      by_contra longer
      rw [List.length_append] at inside
      cases rest with
      | nil =>
          rw [List.length_nil] at inside
          omega
      | cons next rest =>
          refine ends next rfl (onlyBlanks next ?_)
          obtain ⟨more, rfl⟩ : ∃ more, shorter = (first :: run).length + (more + 1) :=
            ⟨shorter - (first :: run).length - 1, by omega⟩
          rw [List.take_length_add_append, List.take_succ_cons]
          exact List.mem_append_right _ List.mem_cons_self
    · -- no other rule but the last one matches at a blank
      rw [List.cons_append] at isMatch
      rcases List.mem_append.mp member with isWord | member
      · obtain ⟨symbol, others, isTaken, plain⟩ := first_word isWord isMatch
        exact absurd (head_of_take rfl isTaken ▸ notPlain) plain
      · rcases List.mem_cons.mp member with rfl | member
        · obtain ⟨symbol, others, isTaken, isNumber⟩ := first_number isMatch
          exact absurd (head_of_take rfl isTaken ▸ isNumber) (apart first firstBlank).2
        · rcases List.mem_cons.mp member with rfl | isLast
          · obtain ⟨inner, _, isTaken⟩ := first_string isMatch
            exact absurd (head_of_take rfl isTaken).symm (apart first firstBlank).1
          · rw [List.mem_singleton.mp isLast] at isMatch
            have one := lastRule_le isMatch inside
            rw [List.length_cons]
            omega

/-! ### The tokens of a rendering -/

theorem tokens_append {action : LexAction} (notEmpty : word ≠ [])
    (taken : munch lexRules (word ++ rest) = some (word.length, action)) :
    tokens (word ++ rest) = (tokenOf ⟨action, word, word ++ rest⟩).toList ++ tokens rest := by
  rw [tokens, lexemes, scan_append notEmpty taken, List.filterMap_cons, tokens, lexemes]
  cases tokenOf ⟨action, word, word ++ rest⟩ <;> rfl

theorem tokenOf_token (kind : TokenKind) (text ahead : Bytes) :
    tokenOf ⟨.token kind, text, ahead⟩ = some ⟨kind, semanticText kind text⟩ := rfl

/-- The blanks at the start of an input do not matter. -/
theorem tokens_dropBlanks (input : Bytes) :
    tokens input = tokens (input.dropWhile fun character => character ∈ blanks) := by
  have split := List.takeWhile_append_dropWhile (p := fun character => decide (character ∈ blanks))
    (l := input)
  by_cases nothing : input.takeWhile (fun character => character ∈ blanks) = []
  · rw [nothing, List.nil_append] at split
    rw [split]
  · have all : ∀ character ∈ input.takeWhile (fun character => character ∈ blanks),
        IsBlank character := by
      intro character member
      have isBlank : decide (character ∈ blanks) = true :=
        List.mem_takeWhile_imp (p := fun character => decide (character ∈ blanks)) member
      exact of_decide_eq_true isBlank
    have ends : ∀ character ∈ (input.dropWhile fun character => character ∈ blanks).head?,
        ¬ IsBlank character := by
      intro character isHead blank
      have notBlank := List.head?_dropWhile_not (fun character => decide (character ∈ blanks)) input
      rw [Option.mem_def.mp isHead] at notBlank
      have notBlank : decide (character ∈ blanks) = false := by simpa using notBlank
      exact of_decide_eq_false notBlank blank
    have run := tokens_append nothing (munch_blanks nothing all ends)
    rw [split] at run
    exact run

theorem tokens_blank {character : UInt8} (blank : IsBlank character) (rest : Bytes) :
    tokens (character :: rest) = tokens rest := by
  have isBlank : decide (character ∈ blanks) = true := decide_eq_true blank
  rw [tokens_dropBlanks,
    List.dropWhile_cons_of_pos (p := fun character => decide (character ∈ blanks)) isBlank,
    ← tokens_dropBlanks]

/-- **The word of a token** is read as the token. -/
theorem tokens_word {token : Token} (printable : token.Printable) (spells : Spells token word)
    (spaced : Spaced rest) :
    tokens (word ++ rest) = token :: tokens rest := by
  cases spells with
  | @literal entry _ member matched =>
      obtain ⟨first, tail, isWord, _⟩ := first_literal member matched
      have notEmpty : word ≠ [] := by
        rw [isWord]
        exact List.cons_ne_nil first tail
      rw [tokens_append notEmpty (munch_literal member matched spaced)]
      obtain ⟨notName, notString, notNumber⟩ := literals_noValue entry member
      have noText : semanticText entry.2 word = [] := by
        unfold semanticText
        split
        · next isName => exact absurd isName notName
        · next isNumber => exact absurd isNumber notNumber
        · next isString => exact absurd isString notString
        · rfl
      rw [tokenOf_token, noText]
      rfl
  | identifier =>
      have isName : IsName word := printable
      obtain ⟨first, tail, isWord, _⟩ := first_identifier isName.pattern
      have notEmpty : word ≠ [] := by
        rw [isWord]
        exact List.cons_ne_nil first tail
      rw [tokens_append notEmpty (munch_identifier isName spaced)]
      rfl
  | string text =>
      obtain ⟨noQuote, _⟩ := printable
      rw [tokens_append (List.cons_ne_nil _ _) (munch_string noQuote rest), tokenOf_token]
      have inner : semanticText .string (quote :: (text ++ [quote])) = text := by
        show ((quote :: (text ++ [quote])).drop 1).take
          ((quote :: (text ++ [quote])).length - 2) = _
        rw [List.drop_succ_cons, List.drop_zero, List.length_cons, List.length_append,
          List.length_singleton, List.take_left']
        omega
      rw [inner]
      rfl

/-- **The lexer reads the tokens of a rendering.** -/
theorem tokens_of_renders {spelled : List Token} {str : Bytes}
    (printable : ∀ token ∈ spelled, token.Printable) (renders : Renders spelled str) :
    tokens str = spelled := by
  induction renders with
  | nil =>
      rw [tokens, lexemes, scan_nil]
      rfl
  | blank blank _ ih => rw [tokens_blank blank, ih printable]
  | word spells spaced _ ih =>
      obtain ⟨first, others⟩ := List.forall_mem_cons.mp printable
      rw [tokens_word first spells spaced, ih others]

theorem noNul_word {token : Token} (printable : token.Printable) (spells : Spells token word) :
    0 ∉ word := by
  intro member
  cases spells with
  | literal isEntry matched => exact literal_plain isEntry matched 0 member List.mem_cons_self
  | identifier =>
      have isName : IsName word := printable
      exact identifier_plain isName.pattern 0 member List.mem_cons_self
  | string text =>
      have apart : (0 : UInt8) ≠ quote := by decide
      obtain ⟨_, noNul⟩ := printable
      rcases List.mem_cons.mp member with isQuote | member
      · exact apart isQuote
      · rcases List.mem_append.mp member with member | isQuote
        · exact noNul member
        · exact apart (List.mem_singleton.mp isQuote)

/-- A rendering has no NUL in it. -/
theorem noNul_of_renders {spelled : List Token} {str : Bytes}
    (printable : ∀ token ∈ spelled, token.Printable) (renders : Renders spelled str) : 0 ∉ str := by
  have apart : (0 : UInt8) ∉ blanks := by decide
  induction renders with
  | nil => exact List.not_mem_nil
  | blank blank _ ih =>
      rw [List.mem_cons, not_or]
      exact ⟨fun isNul => apart (isNul ▸ blank), ih printable⟩
  | word spells _ _ ih =>
      obtain ⟨first, others⟩ := List.forall_mem_cons.mp printable
      rw [List.mem_append, not_or]
      exact ⟨noNul_word first spells, ih others⟩

end Lexer

end Yadb
