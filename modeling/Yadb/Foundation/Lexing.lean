/-
**Lexing by longest match.**

Rules are regular expressions with actions. At each place the longest prefix that a rule matches is
taken, by the first rule that matches so much.

* `longestMatch`: the length of the longest prefix that a pattern matches (`longestMatch_matches`,
  `longestMatch_ge`).
* `munch`: the match that is taken, with its rule (`munch_some`, `munch_eq`).
* `scan`: the lexemes of an input, each with the input from its place on (`scan_munch`); they make
  up the input (`scan_flatten`), and a word that is taken is the first of them (`scan_append`).
* `Interleaves`: some words in their order, with ignored symbols between them. Some of the lexemes
  interleave to the input exactly if the others are ignored symbols (`interleaves_iff`).
* `terminated`: parts with a terminator behind each. Parts without the terminator in them are found
  again (`terminated_inj`).
-/

import Mathlib.Computability.RegularExpressions

namespace Foundation

open RegularExpression

variable {Symbol Action : Type}

/-! ### Patterns -/

/-- One symbol of these. -/
def oneOf (symbols : List Symbol) : RegularExpression Symbol :=
  symbols.foldr (fun symbol rest => char symbol + rest) 0

/-- One pattern after the other. -/
def sequence (patterns : List (RegularExpression Symbol)) : RegularExpression Symbol :=
  patterns.foldr (· * ·) 1

/-- The pattern, once or more. -/
def oneOrMore (pattern : RegularExpression Symbol) : RegularExpression Symbol :=
  pattern * star pattern

/-- The pattern or nothing. -/
def perhaps (pattern : RegularExpression Symbol) : RegularExpression Symbol := pattern + 1

theorem mem_oneOf {symbols : List Symbol} {word : List Symbol} :
    word ∈ (oneOf symbols).matches' ↔ ∃ symbol ∈ symbols, word = [symbol] := by
  induction symbols with
  | nil => exact iff_of_false id fun ⟨_, member, _⟩ => nomatch member
  | cons first symbols ih =>
      show word ∈ ({[first]} : Language Symbol) + (oneOf symbols).matches' ↔ _
      rw [Language.mem_add, ih, List.exists_mem_cons_iff]
      exact or_congr_left Iff.rfl

theorem mem_mul_iff {first second : RegularExpression Symbol} {word : List Symbol} :
    word ∈ (first * second).matches' ↔
      ∃ front ∈ first.matches', ∃ back ∈ second.matches', front ++ back = word := Iff.rfl

theorem mem_perhaps {pattern : RegularExpression Symbol} {word : List Symbol} :
    word ∈ (perhaps pattern).matches' ↔ word ∈ pattern.matches' ∨ word = [] := Iff.rfl

theorem nil_mem_perhaps (pattern : RegularExpression Symbol) :
    [] ∈ (perhaps pattern).matches' := Or.inr rfl

/-- What one symbol starts starts with the symbol. -/
theorem head_of_mem_oneOf_mul {symbols : List Symbol} {rest : RegularExpression Symbol}
    {word : List Symbol} (matched : word ∈ (oneOf symbols * rest).matches') :
    ∃ symbol ∈ symbols, ∃ tail ∈ rest.matches', word = symbol :: tail := by
  obtain ⟨front, isFront, tail, isTail, rfl⟩ := mem_mul_iff.mp matched
  obtain ⟨symbol, member, rfl⟩ := mem_oneOf.mp isFront
  exact ⟨symbol, member, tail, isTail, rfl⟩

theorem cons_mem_oneOf_mul {symbols : List Symbol} {rest : RegularExpression Symbol}
    {symbol : Symbol} {tail : List Symbol} (member : symbol ∈ symbols)
    (isTail : tail ∈ rest.matches') : symbol :: tail ∈ (oneOf symbols * rest).matches' :=
  mem_mul_iff.mpr ⟨[symbol], mem_oneOf.mpr ⟨symbol, member, rfl⟩, tail, isTail, rfl⟩

theorem mem_star_oneOf {symbols word : List Symbol} (members : ∀ symbol ∈ word, symbol ∈ symbols) :
    word ∈ (star (oneOf symbols)).matches' := by
  refine Language.mem_kstar.mpr ⟨word.map fun symbol => [symbol], ?_, ?_⟩
  · induction word with
    | nil => rfl
    | cons symbol word ih =>
        rw [List.map_cons, List.flatten_cons,
          ← ih fun other member => members other (List.mem_cons_of_mem symbol member)]
        rfl
  · intro part isPart
    obtain ⟨symbol, member, rfl⟩ := List.mem_map.mp isPart
    exact mem_oneOf.mpr ⟨symbol, members symbol member, rfl⟩

theorem of_mem_star_oneOf {symbols word : List Symbol}
    (matched : word ∈ (star (oneOf symbols)).matches') : ∀ symbol ∈ word, symbol ∈ symbols := by
  obtain ⟨parts, rfl, isParts⟩ := Language.mem_kstar.mp matched
  intro symbol member
  obtain ⟨part, isPart, inPart⟩ := List.mem_flatten.mp member
  obtain ⟨symbol', isSymbol, rfl⟩ := mem_oneOf.mp (isParts part isPart)
  rw [List.mem_singleton.mp inPart]
  exact isSymbol

/-! ### The longest match -/

section Match

variable [DecidableEq Symbol]

/-- The pattern is empty by its form: no input goes on to a match. -/
def isVoid : RegularExpression Symbol → Bool
  | .zero => true
  | .epsilon | .char _ | .star _ => false
  | .plus first second => isVoid first && isVoid second
  | .comp first second => isVoid first || isVoid second

omit [DecidableEq Symbol] in
theorem not_mem_of_isVoid {pattern : RegularExpression Symbol} (void : isVoid pattern = true)
    (word : List Symbol) : word ∉ pattern.matches' := by
  induction pattern generalizing word with
  | zero => exact id
  | epsilon | char _ | star _ _ => cases void
  | plus first second ihFirst ihSecond =>
      obtain ⟨firstVoid, secondVoid⟩ := Bool.and_eq_true_iff.mp void
      exact fun matched => matched.elim (ihFirst firstVoid word) (ihSecond secondVoid word)
  | comp first second ihFirst ihSecond =>
      intro matched
      obtain ⟨front, isFront, back, isBack, _⟩ := mem_mul_iff.mp matched
      rcases Bool.or_eq_true_iff.mp void with firstVoid | secondVoid
      · exact ihFirst firstVoid front isFront
      · exact ihSecond secondVoid back isBack

/-- The length of the longest prefix that the pattern matches. The input is read until no
continuation of it can match. -/
def longestMatch : RegularExpression Symbol → List Symbol → Option Nat
  | pattern, [] => if pattern.matchEpsilon then some 0 else none
  | pattern, symbol :: rest =>
      match if isVoid (pattern.deriv symbol) then none else longestMatch (pattern.deriv symbol) rest with
      | some length => some (length + 1)
      | none => if pattern.matchEpsilon then some 0 else none

/-- **The pattern matches the prefix.** -/
theorem longestMatch_matches {pattern : RegularExpression Symbol} {input : List Symbol} {length : Nat}
    (found : longestMatch pattern input = some length) :
    length ≤ input.length ∧ input.take length ∈ pattern.matches' := by
  rw [← rmatch_iff_matches']
  induction input generalizing pattern length with
  | nil =>
      rw [longestMatch] at found
      by_cases nullable : pattern.matchEpsilon = true
      · rw [if_pos nullable] at found
        cases found
        exact ⟨Nat.le_refl _, nullable⟩
      · rw [if_neg nullable] at found
        cases found
  | cons symbol rest ih =>
      rw [longestMatch] at found
      split at found
      · next length' further =>
          cases found
          by_cases void : isVoid (pattern.deriv symbol) = true
          · rw [if_pos void] at further
            cases further
          · rw [if_neg void] at further
            obtain ⟨inside, matched⟩ := ih further
            exact ⟨Nat.succ_le_succ inside, matched⟩
      · by_cases nullable : pattern.matchEpsilon = true
        · rw [if_pos nullable] at found
          cases found
          exact ⟨Nat.zero_le _, nullable⟩
        · rw [if_neg nullable] at found
          cases found

/-- **No prefix that the pattern matches is longer.** -/
theorem longestMatch_ge {pattern : RegularExpression Symbol} {input : List Symbol} {length : Nat}
    (inside : length ≤ input.length) (matched : input.take length ∈ pattern.matches') :
    ∃ longest, longestMatch pattern input = some longest ∧ length ≤ longest := by
  rw [← rmatch_iff_matches'] at matched
  induction input generalizing pattern length with
  | nil =>
      rw [List.take_nil] at matched
      exact ⟨0, if_pos matched, inside⟩
  | cons symbol rest ih =>
      rw [longestMatch]
      cases length with
      | zero =>
          split
          · exact ⟨_, rfl, Nat.zero_le _⟩
          · exact ⟨0, if_pos matched, Nat.le_refl _⟩
      | succ length =>
          have goesOn : (pattern.deriv symbol).rmatch (rest.take length) = true := matched
          have notVoid : ¬ isVoid (pattern.deriv symbol) = true := fun void =>
            not_mem_of_isVoid void _ ((rmatch_iff_matches' _ _).mp goesOn)
          obtain ⟨longest, found, above⟩ := ih (Nat.le_of_succ_le_succ inside) goesOn
          rw [if_neg notVoid, found]
          exact ⟨longest + 1, rfl, Nat.succ_le_succ above⟩

structure LexRule (Symbol Action : Type) where
  pattern : RegularExpression Symbol
  action : Action

/-- The length of the longest match of the rules, and the action of the first rule with it. -/
def munch : List (LexRule Symbol Action) → List Symbol → Option (Nat × Action)
  | [], _ => none
  | rule :: rules, input => match longestMatch rule.pattern input, munch rules input with
      | none, later => later
      | some length, none => some (length, rule.action)
      | some length, some (length', action) =>
          if length < length' then some (length', action) else some (length, rule.action)

variable {rules : List (LexRule Symbol Action)} {input : List Symbol} {length : Nat} {action : Action}

/-- A rule that matches makes a match, which is as long. -/
theorem munch_isSome {rule : LexRule Symbol Action} (member : rule ∈ rules) {shorter : Nat}
    (found : longestMatch rule.pattern input = some shorter) :
    ∃ length action, munch rules input = some (length, action) ∧ shorter ≤ length := by
  induction rules with
  | nil => cases member
  | cons first rules ih =>
      rw [munch]
      rcases List.mem_cons.mp member with rfl | member
      · rw [found]
        cases munch rules input with
        | none => exact ⟨shorter, _, rfl, Nat.le_refl _⟩
        | some later =>
            obtain ⟨length', action'⟩ := later
            by_cases longer : shorter < length'
            · exact ⟨length', action', if_pos longer, Nat.le_of_lt longer⟩
            · exact ⟨shorter, _, if_neg longer, Nat.le_refl _⟩
      · obtain ⟨length', action', later, above⟩ := ih member
        rw [later]
        cases longestMatch first.pattern input with
        | none => exact ⟨length', action', rfl, above⟩
        | some length =>
            by_cases longer : length < length'
            · exact ⟨length', action', if_pos longer, above⟩
            · exact ⟨length, _, if_neg longer, above.trans (Nat.le_of_not_lt longer)⟩

/-- **The match that is taken** is the longest, of the first rule that has it. -/
theorem munch_some (taken : munch rules input = some (length, action)) :
    ∃ before rule after, rules = before ++ rule :: after ∧ rule.action = action ∧
      longestMatch rule.pattern input = some length ∧
      (∀ other ∈ before, ∀ shorter, longestMatch other.pattern input = some shorter →
        shorter < length) ∧
      ∀ other ∈ after, ∀ shorter, longestMatch other.pattern input = some shorter →
        shorter ≤ length := by
  induction rules generalizing length action with
  | nil => cases taken
  | cons first rules ih =>
      rw [munch] at taken
      cases head : longestMatch first.pattern input with
      | none =>
          rw [head] at taken
          obtain ⟨before, rule, after, rfl, isAction, found, earlier, later⟩ := ih taken
          refine ⟨first :: before, rule, after, rfl, isAction, found, ?_, later⟩
          refine List.forall_mem_cons.mpr ⟨fun shorter isHead => ?_, earlier⟩
          cases head.symm.trans isHead
      | some longest =>
          rw [head] at taken
          cases rest : munch rules input with
          | none =>
              rw [rest] at taken
              cases taken
              refine ⟨[], first, rules, rfl, rfl, head, nofun, fun other member shorter found => ?_⟩
              obtain ⟨_, _, isSome, _⟩ := munch_isSome member found
              cases rest.symm.trans isSome
          | some later =>
              obtain ⟨length', action'⟩ := later
              rw [rest] at taken
              dsimp only at taken
              by_cases longer : longest < length'
              · rw [if_pos longer] at taken
                cases taken
                obtain ⟨before, rule, after, rfl, isAction, found, earlier, later⟩ := ih rest
                refine ⟨first :: before, rule, after, rfl, isAction, found, ?_, later⟩
                refine List.forall_mem_cons.mpr ⟨fun shorter isHead => ?_, earlier⟩
                rw [head, Option.some.injEq] at isHead
                rwa [← isHead]
              · rw [if_neg longer] at taken
                cases taken
                refine ⟨[], first, rules, rfl, rfl, head, nofun, fun other member shorter found => ?_⟩
                obtain ⟨most, _, isSome, below⟩ := munch_isSome member found
                cases rest.symm.trans isSome
                exact below.trans (Nat.le_of_not_lt longer)

/-- **The longest match of the first rule with it is taken.** -/
theorem munch_eq {before after : List (LexRule Symbol Action)} {rule : LexRule Symbol Action}
    (inside : length ≤ input.length) (matched : input.take length ∈ rule.pattern.matches')
    (earlier : ∀ other ∈ before, ∀ shorter ≤ input.length,
      input.take shorter ∈ other.pattern.matches' → shorter < length)
    (longest : ∀ other ∈ rule :: after, ∀ shorter ≤ input.length,
      input.take shorter ∈ other.pattern.matches' → shorter ≤ length) :
    munch (before ++ rule :: after) input = some (length, rule.action) := by
  induction before with
  | nil =>
      obtain ⟨most, found, atLeast⟩ := longestMatch_ge inside matched
      have within := longestMatch_matches found
      have same : most = length :=
        Nat.le_antisymm (longest rule List.mem_cons_self most within.1 within.2) atLeast
      rw [same] at found
      rw [List.nil_append, munch, found]
      cases later : munch after input with
      | none => rfl
      | some result =>
          obtain ⟨length', action'⟩ := result
          obtain ⟨front, other, back, isRules, _, otherFound, _⟩ := munch_some later
          have member : other ∈ after := by
            rw [isRules]
            exact List.mem_append_right front List.mem_cons_self
          have otherWithin := longestMatch_matches otherFound
          have below := longest other (List.mem_cons_of_mem rule member) length' otherWithin.1
            otherWithin.2
          exact if_neg (Nat.not_lt.mpr below)
  | cons first before ih =>
      obtain ⟨firstEarlier, restEarlier⟩ := List.forall_mem_cons.mp earlier
      rw [List.cons_append, munch, ih restEarlier]
      cases found : longestMatch first.pattern input with
      | none => rfl
      | some shorter =>
          have within := longestMatch_matches found
          exact if_pos (firstEarlier shorter within.1 within.2)

/-! ### The lexemes of an input -/

/-- A lexeme, with the input from its place on. -/
structure Lexeme (Symbol Action : Type) where
  action : Action
  text : List Symbol
  ahead : List Symbol
  deriving DecidableEq

/-- The lexemes of an input that is no longer than the fuel; a place where nothing is matched ends
it. -/
def scan (rules : List (LexRule Symbol Action)) : Nat → List Symbol → List (Lexeme Symbol Action)
  | 0, _ => []
  | fuel + 1, input => match munch rules input with
      | none | some (0, _) => []
      | some (length + 1, action) =>
          ⟨action, input.take (length + 1), input⟩ :: scan rules fuel (input.drop (length + 1))

/-- Every lexeme is the match at its place. -/
theorem scan_munch {fuel : Nat} {lexeme : Lexeme Symbol Action}
    (member : lexeme ∈ scan rules fuel input) : ∃ length,
      munch rules lexeme.ahead = some (length + 1, lexeme.action) ∧
        lexeme.text = lexeme.ahead.take (length + 1) := by
  induction fuel generalizing input with
  | zero => cases member
  | succ fuel ih =>
      rw [scan] at member
      cases taken : munch rules input with
      | none =>
          rw [taken] at member
          cases member
      | some result =>
          obtain ⟨length, action⟩ := result
          rw [taken] at member
          cases length with
          | zero => cases member
          | succ length =>
              rcases List.mem_cons.mp member with rfl | member
              · exact ⟨length, taken, rfl⟩
              · exact ih member

/-- **The lexemes make up the input**, if some rule matches at every place. -/
theorem scan_flatten {fuel : Nat} (enough : input.length ≤ fuel)
    (progress : ∀ rest : List Symbol, rest ≠ [] → ∃ length action,
      munch rules rest = some (length + 1, action)) :
    (scan rules fuel input).flatMap Lexeme.text = input := by
  induction fuel generalizing input with
  | zero =>
      rw [Nat.le_zero, List.length_eq_zero_iff] at enough
      rw [enough]
      rfl
  | succ fuel ih =>
      rw [scan]
      cases input with
      | nil =>
          cases taken : munch rules [] with
          | none => rfl
          | some result =>
              obtain ⟨length, action⟩ := result
              obtain ⟨_, rule, _, _, _, found, _, _⟩ := munch_some taken
              have nothing : length ≤ 0 := (longestMatch_matches found).1
              rw [Nat.le_zero.mp nothing]
              rfl
      | cons symbol rest =>
          obtain ⟨length, action, taken⟩ := progress (symbol :: rest) (List.cons_ne_nil _ _)
          have shorter : ((symbol :: rest).drop (length + 1)).length ≤ fuel := by
            rw [List.length_drop, List.length_cons] at *
            omega
          simp only [taken, List.flatMap_cons, ih shorter]
          exact List.take_append_drop _ _

/-- Nothing is matched where nothing is left. -/
theorem scan_nil (rules : List (LexRule Symbol Action)) (fuel : Nat) : scan rules fuel [] = [] := by
  cases fuel with
  | zero => rfl
  | succ fuel =>
      rw [scan]
      cases taken : munch rules [] with
      | none => rfl
      | some result =>
          obtain ⟨length, action⟩ := result
          obtain ⟨_, rule, _, _, _, found, _⟩ := munch_some taken
          have nothing : length ≤ 0 := (longestMatch_matches found).1
          rw [Nat.le_zero.mp nothing]

/-- Fuel beyond the length of the input changes nothing. -/
theorem scan_fuel {fuel fuel' : Nat} (enough : input.length ≤ fuel)
    (enough' : input.length ≤ fuel') : scan rules fuel input = scan rules fuel' input := by
  induction fuel generalizing input fuel' with
  | zero =>
      rw [Nat.le_zero, List.length_eq_zero_iff] at enough
      rw [enough, scan_nil, scan_nil]
  | succ fuel ih =>
      cases input with
      | nil => rw [scan_nil, scan_nil]
      | cons symbol rest =>
          rw [List.length_cons] at enough enough'
          obtain ⟨fuel', rfl⟩ : ∃ fewer, fuel' = fewer + 1 := ⟨fuel' - 1, by omega⟩
          rw [scan, scan]
          cases munch rules (symbol :: rest) with
          | none => rfl
          | some result =>
              obtain ⟨length, action⟩ := result
              cases length with
              | zero => rfl
              | succ length =>
                  have shorter : ((symbol :: rest).drop (length + 1)).length ≤ rest.length := by
                    rw [List.drop_succ_cons, List.length_drop]
                    omega
                  dsimp only
                  exact congrArg _ (ih (by omega) (by omega))

/-- **The first lexeme of an input.** -/
theorem scan_append {word rest : List Symbol} (notEmpty : word ≠ [])
    (taken : munch rules (word ++ rest) = some (word.length, action)) :
    scan rules (word ++ rest).length (word ++ rest)
      = ⟨action, word, word ++ rest⟩ :: scan rules rest.length rest := by
  cases word with
  | nil => exact absurd rfl notEmpty
  | cons symbol word =>
      have step : scan rules ((word ++ rest).length + 1) (symbol :: (word ++ rest)) = _ := rfl
      rw [List.cons_append, List.length_cons] at *
      rw [scan, taken]
      dsimp only
      rw [List.take_succ_cons, List.take_left', List.drop_succ_cons, List.drop_left']
      · have enough : rest.length ≤ (word ++ rest).length := by
          rw [List.length_append]
          exact Nat.le_add_left _ _
        rw [scan_fuel enough (Nat.le_refl _)]
      · rfl
      · rfl

end Match

/-! ### Words with symbols between them -/

/-- The words in their order, with ignored symbols before, between and behind them. -/
inductive Interleaves (ignored : Symbol → Prop) : List (List Symbol) → List Symbol → Prop
  | nil : Interleaves ignored [] []
  | ignore {words : List (List Symbol)} {symbol : Symbol} {rest : List Symbol} : ignored symbol →
      Interleaves ignored words rest → Interleaves ignored words (symbol :: rest)
  | word {word : List Symbol} {words : List (List Symbol)} {rest : List Symbol} :
      Interleaves ignored words rest → Interleaves ignored (word :: words) (word ++ rest)

section Interleaves

variable {ignored : Symbol → Prop} [DecidablePred ignored] {words : List (List Symbol)}
  {input : List Symbol}

/-- How many symbols are not ignored. -/
def essential (ignored : Symbol → Prop) [DecidablePred ignored] (input : List Symbol) : Nat :=
  input.countP fun symbol => ¬ ignored symbol

theorem essential_append (first second : List Symbol) :
    essential ignored (first ++ second) = essential ignored first + essential ignored second :=
  List.countP_append

theorem essential_eq_zero : essential ignored input = 0 ↔ ∀ symbol ∈ input, ignored symbol := by
  simp only [essential, List.countP_eq_zero, decide_eq_true_eq, not_not]

omit [DecidablePred ignored] in
theorem Interleaves.ignored_append (interleaves : Interleaves ignored words input)
    {front : List Symbol} (all : ∀ symbol ∈ front, ignored symbol) :
    Interleaves ignored words (front ++ input) := by
  induction front with
  | nil => exact interleaves
  | cons symbol front ih =>
      obtain ⟨first, rest⟩ := List.forall_mem_cons.mp all
      exact .ignore first (ih rest)

/-- Nothing that is not ignored lies outside the words. -/
theorem Interleaves.essential (interleaves : Interleaves ignored words input) :
    Foundation.essential ignored input = Foundation.essential ignored words.flatten := by
  induction interleaves with
  | nil => rfl
  | @ignore words symbol rest isIgnored _ ih =>
      rw [← ih]
      exact List.countP_cons_of_neg (by simpa using isIgnored)
  | word _ ih => rw [List.flatten_cons, essential_append, essential_append, ih]

/-- The lexemes are those that are kept and those that are not. -/
theorem essential_items {Item : Type} (kept : Item → Bool) (text : Item → List Symbol)
    (items : List Item) :
    essential ignored (items.flatMap text)
      = essential ignored ((items.filter kept).map text).flatten
        + essential ignored ((items.filter fun item => !kept item).flatMap text) := by
  induction items with
  | nil => rfl
  | cons item items ih =>
      rw [List.flatMap_cons, essential_append, ih]
      cases isKept : kept item with
      | true =>
          rw [List.filter_cons_of_pos isKept, List.filter_cons_of_neg (by simp [isKept]),
            List.map_cons, List.flatten_cons, essential_append]
          omega
      | false =>
          rw [List.filter_cons_of_neg (by simp [isKept]), List.filter_cons_of_pos (by simp [isKept]),
            List.flatMap_cons, essential_append]
          omega

/-- **Some of the lexemes interleave to the input** exactly if the others are ignored symbols. -/
theorem interleaves_iff {Item : Type} (kept : Item → Bool) (text : Item → List Symbol)
    (items : List Item) :
    Interleaves ignored ((items.filter kept).map text) (items.flatMap text) ↔
      ∀ item ∈ items, kept item = false → ∀ symbol ∈ text item, ignored symbol := by
  constructor
  · intro interleaves item member notKept symbol inText
    have counted := interleaves.essential
    rw [essential_items kept text items] at counted
    have isZero : essential ignored ((items.filter fun item => !kept item).flatMap text) = 0 := by
      omega
    have dropped : item ∈ items.filter fun item => !kept item :=
      List.mem_filter.mpr ⟨member, by simp [notKept]⟩
    exact essential_eq_zero.mp isZero symbol (List.mem_flatMap.mpr ⟨item, dropped, inText⟩)
  · intro others
    induction items with
    | nil => exact .nil
    | cons item items ih =>
        obtain ⟨first, rest⟩ := List.forall_mem_cons.mp others
        rw [List.flatMap_cons]
        cases isKept : kept item with
        | true =>
            rw [List.filter_cons_of_pos isKept, List.map_cons]
            exact .word (ih rest)
        | false =>
            rw [List.filter_cons_of_neg (by rw [isKept]; exact Bool.false_ne_true)]
            exact (ih rest).ignored_append (first isKept)

end Interleaves

/-! ### Parts with a terminator -/

/-- What stands before the first separator, and what stands behind it. -/
theorem split_first {separator : Symbol} {front front' back back' : List Symbol}
    (outside : separator ∉ front) (outside' : separator ∉ front')
    (same : front ++ separator :: back = front' ++ separator :: back') :
    front = front' ∧ back = back' := by
  induction front generalizing front' with
  | nil =>
      cases front' with
      | nil => exact ⟨rfl, (List.cons.inj same).2⟩
      | cons first front' =>
          rw [(List.cons.inj same).1] at outside'
          exact absurd List.mem_cons_self outside'
  | cons first front ih =>
      obtain ⟨notFirst, outside⟩ := not_or.mp (mt List.mem_cons.mpr outside)
      cases front' with
      | nil => exact absurd (List.cons.inj same).1.symm notFirst
      | cons first' front' =>
          obtain ⟨isFirst, same⟩ := List.cons.inj same
          obtain ⟨rfl, isBack⟩ := ih outside
            (fun member => outside' (List.mem_cons_of_mem first' member)) same
          exact ⟨congrArg (· :: front) isFirst, isBack⟩

/-- Parts with a terminator behind each. -/
def terminated (terminator : Symbol) (parts : List (List Symbol)) : List Symbol :=
  parts.flatMap fun part => part ++ [terminator]

/-- **The parts are found again**, where none has the terminator in it. -/
theorem terminated_inj {terminator : Symbol} {parts parts' : List (List Symbol)}
    (outside : ∀ part ∈ parts, terminator ∉ part) (outside' : ∀ part ∈ parts', terminator ∉ part)
    (same : terminated terminator parts = terminated terminator parts') : parts = parts' := by
  induction parts generalizing parts' with
  | nil =>
      cases parts' with
      | nil => rfl
      | cons part parts' =>
          rw [terminated, terminated, List.flatMap_nil, List.flatMap_cons,
            List.append_assoc] at same
          exact absurd same.symm (List.append_ne_nil_of_right_ne_nil _ (List.cons_ne_nil _ _))
  | cons part parts ih =>
      obtain ⟨first, rest⟩ := List.forall_mem_cons.mp outside
      cases parts' with
      | nil =>
          rw [terminated, terminated, List.flatMap_nil, List.flatMap_cons,
            List.append_assoc] at same
          exact absurd same (List.append_ne_nil_of_right_ne_nil _ (List.cons_ne_nil _ _))
      | cons part' parts' =>
          obtain ⟨first', rest'⟩ := List.forall_mem_cons.mp outside'
          rw [terminated, terminated, List.flatMap_cons, List.flatMap_cons, List.append_assoc,
            List.append_assoc, List.singleton_append, List.singleton_append] at same
          obtain ⟨rfl, sameRest⟩ := split_first first first' same
          rw [ih rest rest' sameRest]

theorem terminated_append (terminator : Symbol) (parts : List (List Symbol))
    (part : List Symbol) : terminated terminator (parts ++ [part])
      = terminated terminator parts ++ part ++ [terminator] := by
  rw [terminated, List.flatMap_append, List.flatMap_singleton, ← List.append_assoc]
  rfl

section Cut

variable [DecidableEq Symbol]

/-- What stands before the first separator, and what stands behind it. -/
def cut (separator : Symbol) : List Symbol → Option (List Symbol × List Symbol)
  | [] => none
  | symbol :: rest =>
      if symbol = separator then some ([], rest)
      else (cut separator rest).map fun parts => (symbol :: parts.1, parts.2)

theorem cut_append {separator : Symbol} {front : List Symbol} (outside : separator ∉ front)
    (back : List Symbol) : cut separator (front ++ separator :: back) = some (front, back) := by
  induction front with
  | nil => exact if_pos rfl
  | cons symbol front ih =>
      obtain ⟨notFirst, outside⟩ := not_or.mp (mt List.mem_cons.mpr outside)
      rw [List.cons_append, cut, if_neg (Ne.symm notFirst), ih outside]
      rfl

theorem of_cut {separator : Symbol} {symbols front back : List Symbol}
    (found : cut separator symbols = some (front, back)) :
    symbols = front ++ separator :: back ∧ separator ∉ front := by
  induction symbols generalizing front with
  | nil => cases found
  | cons symbol symbols ih =>
      rw [cut] at found
      by_cases same : symbol = separator
      · rw [if_pos same] at found
        cases found
        rw [same]
        exact ⟨rfl, List.not_mem_nil⟩
      · rw [if_neg same] at found
        obtain ⟨⟨front', back'⟩, isCut, isPair⟩ := Option.map_eq_some_iff.mp found
        cases isPair
        obtain ⟨rfl, outside⟩ := ih isCut
        exact ⟨rfl, fun member => (List.mem_cons.mp member).elim (fun first => same first.symm) outside⟩

/-- The parts between terminators, with nothing behind the last of them. -/
theorem splitOn_terminated {terminator : Symbol} {parts : List (List Symbol)}
    (outside : ∀ part ∈ parts, terminator ∉ part) :
    (terminated terminator parts).splitOn terminator = parts ++ [[]] := by
  induction parts with
  | nil => rfl
  | cons part parts ih =>
      obtain ⟨first, rest⟩ := List.forall_mem_cons.mp outside
      have back := ih rest
      rw [terminated] at back
      rw [terminated, List.flatMap_cons, List.append_assoc, List.singleton_append,
        List.splitOn_append_cons_self_of_not_mem first, back]
      rfl

/-- Symbols whose last part is empty are parts with a terminator behind each. -/
theorem of_splitOn_terminated {terminator : Symbol} {symbols : List Symbol}
    {parts : List (List Symbol)} (split : symbols.splitOn terminator = parts ++ [[]]) :
    symbols = terminated terminator parts := by
  have joined : [terminator].intercalate (symbols.splitOn terminator) = symbols :=
    List.intercalate_splitOn terminator
  rw [← joined, split]
  clear split joined
  induction parts with
  | nil => rfl
  | cons part parts ih =>
      rw [terminated, List.flatMap_cons, ← terminated, ← ih, List.cons_append,
        List.intercalate_cons_of_ne_nil (List.append_ne_nil_of_right_ne_nil _ (List.cons_ne_nil _ _)),
        List.append_assoc]

end Cut

/-- Symbols between separators, one separator after the other. -/
theorem intercalate_cons_flatMap (separator : Symbol) (part : List Symbol)
    (parts : List (List Symbol)) :
    [separator].intercalate (part :: parts) = part ++ parts.flatMap (separator :: ·) := by
  induction parts generalizing part with
  | nil => rw [List.intercalate_singleton, List.flatMap_nil, List.append_nil]
  | cons next parts ih =>
      rw [List.intercalate_cons_of_ne_nil (List.cons_ne_nil next parts), ih next, List.flatMap_cons,
        List.append_assoc]
      rfl

/-- The items are read one by one. -/
theorem mapM_eq_some_iff {Item Result : Type} {read : Item → Option Result} {items : List Item}
    {results : List Result} : items.mapM read = some results ↔
      List.Forall₂ (fun item result => read item = some result) items results := by
  induction items generalizing results with
  | nil =>
      rw [List.mapM_nil, List.forall₂_nil_left_iff]
      exact ⟨fun same => (Option.some.inj same).symm, fun same => congrArg some same.symm⟩
  | cons item items ih =>
      rw [List.mapM_cons, List.forall₂_cons_left_iff]
      constructor
      · intro isRead
        obtain ⟨first, isFirst, isRest⟩ := Option.bind_eq_some_iff.mp isRead
        obtain ⟨rest, isMapped, same⟩ := Option.bind_eq_some_iff.mp isRest
        exact ⟨first, rest, isFirst, ih.mp isMapped, (Option.some.inj same).symm⟩
      · rintro ⟨first, rest, isFirst, each, rfl⟩
        rw [isFirst, ih.mpr each]
        rfl

end Foundation
