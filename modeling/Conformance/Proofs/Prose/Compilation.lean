import Conformance.Proofs.Prose.Preference
import Conformance.Proofs.Prose.Reading

/-!
# Compiling patterns

A pattern is looked for by an engine of regular expressions.  `IsExpression` is the part of their
syntax that has characters, escapes, groups, alternatives and repetitions, together with the number
of groups; a reader counts the groups, so the number is determined by the text.  The main statement
is that an engine which accepts this syntax never refuses the expression of a pattern, so only
keyword markers and anchors decide whether a text is a pattern.
-/

namespace Conformance
namespace Prose

open scoped Text

/-! ## The syntax of regular expressions -/

namespace Expression

/-- The characters that do not stand for themselves. -/
def operators : List Char :=
  "\\.+*?()|[]\x7b\x7d^$"

/-- The letters that name a class of characters or a control character behind a backslash. -/
def letters : List Char :=
  "dDsSwWafnrtv"

/-- Marks of repetition, and none: a second mark prefers fewer repetitions. -/
def repetitions : List (List Char) :=
  ["", "*", "+", "?", "*?", "+?", "??"]

/-- What one character is matched by. -/
inductive IsItem : List Char → Prop where
  /-- A character that stands for itself. -/
  | plain {character : Char} (ordinary : character ∉ operators) : IsItem [character]
  /-- A character whose meaning is taken away. -/
  | escaped {character : Char} (isMeta : character ∈ Token.metacharacters) :
      IsItem ['\\', character]
  /-- A class of characters or a control character. -/
  | named {letter : Char} (isLetter : letter ∈ letters) : IsItem ['\\', letter]
  /-- Any character. -/
  | any : IsItem ['.']

end Expression

open Expression

/-- The regular expressions, with the number of their groups. -/
inductive IsExpression : List Char → Nat → Prop where
  /-- The empty expression. -/
  | empty : IsExpression [] 0
  /-- One character comes first, which may be repeated. -/
  | item
      {item mark rest : List Char}
      {groups : Nat}
      (isItem : IsItem item)
      (isMark : mark ∈ repetitions)
      (later : IsExpression rest groups) :
      IsExpression (item ++ (mark ++ rest)) groups
  /-- A group comes first, which may be repeated. -/
  | group
      {inner mark rest : List Char}
      {groupsInside groups : Nat}
      (inside : IsExpression inner groupsInside)
      (isMark : mark ∈ repetitions)
      (later : IsExpression rest groups) :
      IsExpression ('(' :: (inner ++ ')' :: (mark ++ rest))) (groupsInside + 1 + groups)
  /-- Either of two expressions. -/
  | alternative
      {first second : List Char}
      {groupsFirst groupsSecond : Nat}
      (isFirst : IsExpression first groupsFirst)
      (isSecond : IsExpression second groupsSecond) :
      IsExpression (first ++ '|' :: second) (groupsFirst + groupsSecond)

/-- A whole expression behind the flag that lets a dot match a line break. -/
def IsFlagged (text : List Char) (groups : Nat) : Prop :=
  ∃ expression, text = "(?s)" ++ expression ∧ IsExpression expression groups

namespace Expression

/-! ## Counting groups -/

/-- The marks of repetition begin with one of these characters. -/
def repeats (character : Char) : Bool :=
  ['*', '+', '?'].contains character

/-- The text without the mark of repetition that it begins with. -/
def afterMark : List Char → List Char
  | [] => []
  | [character] => if repeats character then [] else [character]
  | character :: next :: rest =>
      if repeats character then
        if next = '?' then rest else next :: rest
      else character :: next :: rest

theorem length_afterMark_le (text : List Char) : (afterMark text).length ≤ text.length := by
  unfold afterMark
  repeat' split
  all_goals
    simp only [List.length_cons, List.length_nil]
    omega

/-- The number of groups that begin in the rest of an expression, if the rest closes the groups that
are open. -/
def countFrom? (opened : Nat) : List Char → Option Nat
  | [] => if opened = 0 then some 0 else none
  | '\\' :: character :: rest =>
      if character ∈ Token.metacharacters ∨ character ∈ letters then
        countFrom? opened (afterMark rest)
      else none
  | '(' :: rest => (countFrom? (opened + 1) rest).map (· + 1)
  | ')' :: rest => if opened = 0 then none else countFrom? (opened - 1) (afterMark rest)
  | '|' :: rest => countFrom? opened rest
  | '.' :: rest => countFrom? opened (afterMark rest)
  | character :: rest =>
      if character ∈ operators then none else countFrom? opened (afterMark rest)
termination_by text => text.length
decreasing_by
  all_goals
    have := length_afterMark_le rest
    simp only [List.length_cons]
    omega

/-- The number of groups of an expression behind the flag. -/
def count? (text : List Char) : Option Nat :=
  (Text.after? "(?s)" text).bind (countFrom? 0)

/-- Where an expression may end: at the end of the text, of a group or of an alternative. -/
def Ends (rest : List Char) : Prop :=
  ∀ character ∈ rest.head?, character = ')' ∨ character = '|'

theorem repeats_eq_false_of_ends
    {rest : List Char}
    (ends : Ends rest) :
    ∀ character ∈ rest.head?, repeats character = false := by
  intro character first
  rcases ends character first with rfl | rfl <;> rfl

theorem afterMark_append
    {mark rest : List Char}
    (isMark : mark ∈ repetitions)
    (separate : ∀ character ∈ rest.head?, repeats character = false) :
    afterMark (mark ++ rest) = rest := by
  simp only [repetitions, Text.chars_eq_toList, List.mem_cons, List.not_mem_nil, or_false] at isMark
  have other : ∀ character others, rest = character :: others → character ≠ '?' := by
    rintro character others rfl rfl
    exact absurd (separate '?' rfl) (by decide)
  rcases isMark with rfl | rfl | rfl | rfl | rfl | rfl | rfl
  · rcases rest with _ | ⟨character, _ | ⟨next, others⟩⟩
    · rfl
    · simp [afterMark, separate character rfl]
    · simp [afterMark, separate character rfl]
  all_goals
    rcases rest with _ | ⟨character, others⟩
    · rfl
    · simp [afterMark, repeats, other character others rfl]

theorem mem_metacharacters_of_mem_operators
    {character : Char}
    (isOperator : character ∈ operators) :
    character ∈ Token.metacharacters := by
  have subset : operators ⊆ Token.metacharacters := by
    simp [operators, Token.metacharacters, Text.chars_eq_toList]
  exact subset isOperator

/-- An item is stepped over, together with its repetition. -/
theorem countFrom?_item_append
    {item : List Char}
    (isItem : IsItem item)
    (opened : Nat)
    (rest : List Char) :
    countFrom? opened (item ++ rest) = countFrom? opened (afterMark rest) := by
  cases isItem with
  | plain ordinary =>
      rw [List.singleton_append, countFrom?.eq_7, if_neg ordinary]
      all_goals
        intros
        subst_vars
        simp [operators, Text.chars_eq_toList] at ordinary
  | escaped isMeta => simp [countFrom?, isMeta]
  | named isLetter => simp [countFrom?, isLetter]
  | any => simp [countFrom?]

theorem exists_cons_of_isItem {item : List Char} (isItem : IsItem item) :
    ∃ character others, item = character :: others ∧ repeats character = false := by
  cases isItem with
  | @plain character ordinary =>
      refine ⟨character, [], rfl, ?_⟩
      rw [repeats, List.contains_eq_mem, decide_eq_false_iff_not]
      simp only [operators, Text.chars_eq_toList] at ordinary
      intro member
      simp only [List.mem_cons, List.not_mem_nil, or_false] at member
      rcases member with rfl | rfl | rfl <;> exact ordinary (by decide)
  | escaped isMeta => exact ⟨_, _, rfl, rfl⟩
  | named isLetter => exact ⟨_, _, rfl, rfl⟩
  | any => exact ⟨_, _, rfl, rfl⟩

/-- No expression begins with a mark of repetition. -/
theorem repeats_eq_false_of_isExpression
    {text rest : List Char}
    {groups : Nat}
    (isExpression : IsExpression text groups)
    (ends : Ends rest) :
    ∀ character ∈ (text ++ rest).head?, repeats character = false := by
  induction isExpression generalizing rest with
  | empty => exact repeats_eq_false_of_ends ends
  | item isItem isMark later inductionHypothesis =>
      obtain ⟨character, others, rfl, ordinary⟩ := exists_cons_of_isItem isItem
      intro first isFirst
      cases isFirst
      exact ordinary
  | group inside isMark later insideHypothesis laterHypothesis =>
      intro character first
      cases first
      rfl
  | alternative isFirst isSecond firstHypothesis secondHypothesis =>
      rw [List.append_assoc]
      refine firstHypothesis ?_
      intro character first
      cases first
      exact .inr rfl

/-- An expression adds its groups to those of what follows. -/
theorem countFrom?_append
    {text rest : List Char}
    {groups : Nat}
    (isExpression : IsExpression text groups)
    (ends : Ends rest)
    (opened : Nat) :
    countFrom? opened (text ++ rest) = (countFrom? opened rest).map (· + groups) := by
  induction isExpression generalizing rest opened with
  | empty => simp
  | @item item mark after groups isItem isMark later inductionHypothesis =>
      have separate := repeats_eq_false_of_isExpression later ends
      rw [List.append_assoc, countFrom?_item_append isItem, List.append_assoc,
        afterMark_append isMark separate, inductionHypothesis ends]
  | @group inner mark after groupsInside groups inside isMark later insideHypothesis
      laterHypothesis =>
      have separate := repeats_eq_false_of_isExpression later ends
      have closes : Ends (')' :: (mark ++ (after ++ rest))) := by
        intro character first
        cases first
        exact .inl rfl
      have text_eq : '(' :: (inner ++ ')' :: (mark ++ after)) ++ rest =
          '(' :: (inner ++ ')' :: (mark ++ (after ++ rest))) := by simp
      rw [text_eq, countFrom?, insideHypothesis closes, countFrom?, if_neg (Nat.succ_ne_zero _),
        Nat.add_sub_cancel, afterMark_append isMark separate, laterHypothesis ends, Option.map_map,
        Option.map_map]
      refine congrArg (Option.map · _) (funext fun count => ?_)
      simp only [Function.comp_apply]
      omega
  | @alternative first second groupsFirst groupsSecond isFirst isSecond firstHypothesis
      secondHypothesis =>
      have divides : Ends ('|' :: (second ++ rest)) := by
        intro character first
        cases first
        exact .inr rfl
      rw [List.append_assoc, List.cons_append, firstHypothesis divides, countFrom?,
        secondHypothesis ends, Option.map_map]
      refine congrArg (Option.map · _) (funext fun count => ?_)
      simp only [Function.comp_apply]
      omega

/-- The number of groups is counted. -/
theorem count?_of_isFlagged
    {text : List Char}
    {groups : Nat}
    (isFlagged : IsFlagged text groups) :
    count? text = some groups := by
  obtain ⟨expression, rfl, isExpression⟩ := isFlagged
  have ends : Ends [] := by simp [Ends]
  have counted := countFrom?_append isExpression ends 0
  rw [List.append_nil] at counted
  rw [count?, Text.after?_append_self, Option.bind_some, counted, countFrom?]
  simp

end Expression

/-! ## Expressions of patterns -/

/-- In front of an expression a token adds a group if it is an anchor, and no group otherwise. -/
theorem IsExpression.token_append
    {rest : List Char}
    {groups : Nat}
    (isExpression : IsExpression rest groups)
    (token : Token) :
    IsExpression (token.expression ++ rest) (groups + if token = .anchor then 1 else 0) := by
  have once : [] ∈ repetitions := by simp [repetitions, Text.chars_eq_toList]
  have more : ['+'] ∈ repetitions := by simp [repetitions, Text.chars_eq_toList]
  have fewest : ['*', '?'] ∈ repetitions := by simp [repetitions, Text.chars_eq_toList]
  have isLetter : 's' ∈ letters ∧ 'n' ∈ letters := by simp [letters, Text.chars_eq_toList]
  cases token with
  | anchor =>
      have isGroup := IsExpression.group .empty once isExpression
      simpa [Token.expression, Text.chars_eq_toList, Nat.add_comm] using isGroup
  | any =>
      have isDot := IsExpression.item .any more isExpression
      simpa [Token.expression, Text.chars_eq_toList] using isDot
  | lineEnd =>
      have isBreak := IsExpression.item (.named isLetter.2) once isExpression
      have isEnd := IsExpression.item (.named isLetter.1) fewest isBreak
      simpa [Token.expression, Text.chars_eq_toList] using isEnd
  | blanks =>
      have isRun := IsExpression.item (.named isLetter.1) more isExpression
      simpa [Token.expression, Text.chars_eq_toList] using isRun
  | literal character =>
      by_cases isMeta : character ∈ Token.metacharacters
      · have isEscaped := IsExpression.item (.escaped isMeta) once isExpression
        simpa [Token.expression, isMeta] using isEscaped
      · have ordinary := mt mem_metacharacters_of_mem_operators isMeta
        have isPlain := IsExpression.item (.plain ordinary) once isExpression
        simpa [Token.expression, isMeta] using isPlain

/-- The expression of a pattern has one group for each anchor. -/
theorem isFlagged_regularExpression (tokens : List Token) :
    IsFlagged (Token.regularExpression tokens) (tokens.count .anchor) := by
  refine ⟨tokens.flatMap Token.expression, rfl, ?_⟩
  induction tokens with
  | nil => exact .empty
  | cons token tokens inductionHypothesis =>
      rw [List.flatMap_cons, List.count_cons]
      simpa using inductionHypothesis.token_append token

/-- The expression of prose has as many groups as the prose has anchors. -/
theorem isFlagged_ofProse_iff {prose : List Char} {groups : Nat} :
    IsFlagged (Token.regularExpression (Token.ofProse prose)) groups ↔
      groups = Text.occurrences "<^>" prose := by
  have isFlagged := isFlagged_regularExpression (Token.ofProse prose)
  rw [count_anchor_eq_occurrences (reads_ofProse prose)] at isFlagged
  constructor
  · intro other
    have same := (Expression.count?_of_isFlagged other).symm.trans
      (Expression.count?_of_isFlagged isFlagged)
    exact Option.some.inj same
  · rintro rfl
    exact isFlagged

/-! ## Texts that are patterns -/

namespace Pattern

/-- The text has at most one keyword marker, and one anchor when the markers are taken away. -/
structure IsPattern (text : List Char) : Prop where
  markers : (unmark text).keywords.length ≤ 1
  anchors : Text.occurrences "<^>" (unmark text).prose = 1

variable {id text : String} {given : Option Keyword}

theorem isPattern_iff {text : List Char} :
    IsPattern text ↔
      (unmark text).keywords.length ≤ 1 ∧ Text.occurrences "<^>" (unmark text).prose = 1 :=
  ⟨fun isPattern => ⟨isPattern.markers, isPattern.anchors⟩, fun ⟨markers, anchors⟩ =>
    ⟨markers, anchors⟩⟩

theorem compile_of_isPattern (isPattern : IsPattern text.toList) (id : String) :
    compile id text given =
      .ok {
        tokens := Token.ofProse (unmark text.toList).prose
        keyword := (given <|> (unmark text.toList).keywords.head?).getD .none } := by
  have single : ¬ (unmark text.toList).keywords.length > 1 := Nat.not_lt.2 isPattern.markers
  simp [compile, ofText, single, isPattern.anchors, Except.mapError]

theorem exists_compile_of_not_isPattern (noPattern : ¬ IsPattern text.toList) (id : String) :
    ∃ message, compile id text given = .error (.malformedPattern id message) := by
  simp only [compile, ofText]
  split
  · exact ⟨_, rfl⟩
  · next single =>
      split
      · exact ⟨_, rfl⟩
      · next oneAnchor =>
          exact absurd ⟨Nat.not_lt.1 single, Decidable.not_not.1 oneAnchor⟩ noPattern

end Pattern

/-! ## Engines -/

/-- An engine of regular expressions. -/
structure Engine where
  /-- The expressions that are not too large for the engine. -/
  Fits : List Char → Prop
  /-- The number of groups of an expression, or why the engine refuses it. -/
  groups : List Char → Except String Nat
  /-- An expression that fits is accepted with its groups. -/
  groups_eq_ok : ∀ {text count}, IsFlagged text count → Fits text → groups text = .ok count

namespace Engine

/-- A pattern with an expression that the engine accepts and that has one group. -/
def accept (engine : Engine) (id : String) (pattern : Pattern) : Except Error Pattern :=
  match engine.groups (Token.regularExpression pattern.tokens) with
  | .error reason => .error (.malformedPattern id reason)
  | .ok groups =>
      if groups ≠ 1 then .error (.malformedPattern id s!"{groups} capture groups") else .ok pattern

/-- The pattern of the assertion with that id, if the engine accepts it. -/
def compile
    (engine : Engine)
    (id text : String)
    (given : Option Keyword) :
    Except Error Pattern := do
  let pattern ← Pattern.compile id text given
  engine.accept id pattern

variable {engine : Engine} {id text : String} {given : Option Keyword}

/-- An engine accepts every expression with one group that fits. -/
theorem accept_eq_ok
    {pattern : Pattern}
    (oneAnchor : pattern.tokens.count .anchor = 1)
    (fits : engine.Fits (Token.regularExpression pattern.tokens)) :
    engine.accept id pattern = .ok pattern := by
  have isFlagged := isFlagged_regularExpression pattern.tokens
  rw [oneAnchor] at isFlagged
  rw [accept, engine.groups_eq_ok isFlagged fits]
  rfl

/-- The engine decides nothing: it accepts what is found to be a pattern. -/
theorem compile_eq
    (fits : engine.Fits (Token.regularExpression (Token.ofProse (unmark text.toList).prose))) :
    engine.compile id text given = Pattern.compile id text given := by
  rw [compile]
  cases compiled : Pattern.compile id text given with
  | error error => rfl
  | ok pattern =>
      have isPattern := Pattern.ofText_of_compile_eq_ok compiled
      obtain ⟨tokens_eq, oneAnchor⟩ := Pattern.ofText_eq_ok isPattern
      rw [← tokens_eq] at fits
      refine accept_eq_ok ?_ fits
      rw [count_anchor_eq_occurrences (reads_iff.2 tokens_eq), oneAnchor]

/-- The engine counts the anchors of any prose. -/
theorem groups_ofProse
    {prose : List Char}
    (fits : engine.Fits (Token.regularExpression (Token.ofProse prose))) :
    engine.groups (Token.regularExpression (Token.ofProse prose)) =
      .ok (Text.occurrences "<^>" prose) :=
  engine.groups_eq_ok (isFlagged_ofProse_iff.2 rfl) fits

/-- Compiling fails exactly if two keywords are marked or there is not one anchor, and names the
assertion then.  The expression of any prose is written as the syntax of regular expressions says
and has one group for each anchor, so an engine neither refuses the expression of a pattern nor
finds another number of groups in it.  A given keyword wins over a marked one. -/
theorem compile_eq_error_iff
    (fits : engine.Fits (Token.regularExpression (Token.ofProse (unmark text.toList).prose))) :
    ((∃ error, engine.compile id text given = .error error) ↔
      2 ≤ (unmark text.toList).keywords.length ∨
        Text.occurrences "<^>" (unmark text.toList).prose ≠ 1) ∧
    (∀ error, engine.compile id text given = .error error →
      ∃ message, error = .malformedPattern id message) ∧
    (∀ prose groups, IsFlagged (Token.regularExpression (Token.ofProse prose)) groups ↔
      groups = Text.occurrences "<^>" prose) ∧
    (∀ prose, engine.Fits (Token.regularExpression (Token.ofProse prose)) →
      engine.groups (Token.regularExpression (Token.ofProse prose)) =
        .ok (Text.occurrences "<^>" prose)) ∧
    engine.compile id text given = Pattern.compile id text given ∧
    ∀ pattern, engine.compile id text given = .ok pattern →
      pattern.tokens = Token.ofProse (unmark text.toList).prose ∧
      (∀ keyword, given = some keyword → pattern.keyword = keyword) ∧
      (∀ keyword, given = none → (unmark text.toList).keywords = [keyword] →
        pattern.keyword = keyword) ∧
      (given = none → (unmark text.toList).keywords = [] → pattern.keyword = .none) := by
  have illFormed_iff :
      (2 ≤ (unmark text.toList).keywords.length ∨
        Text.occurrences "<^>" (unmark text.toList).prose ≠ 1) ↔
      ¬ Pattern.IsPattern text.toList := by
    rw [Pattern.isPattern_iff]
    omega
  have unreachable : engine.compile id text given = Pattern.compile id text given := compile_eq fits
  rw [unreachable, illFormed_iff]
  refine ⟨⟨?_, ?_⟩, ?_, fun _ _ => isFlagged_ofProse_iff, fun _ => groups_ofProse, rfl, ?_⟩
  · rintro ⟨error, failed⟩ isPattern
    rw [Pattern.compile_of_isPattern isPattern] at failed
    exact nomatch failed
  · intro noPattern
    obtain ⟨message, failed⟩ := Pattern.exists_compile_of_not_isPattern noPattern id
    exact ⟨_, failed⟩
  · intro error failed
    by_cases isPattern : Pattern.IsPattern text.toList
    · rw [Pattern.compile_of_isPattern isPattern] at failed
      exact nomatch failed
    · obtain ⟨message, malformed⟩ := Pattern.exists_compile_of_not_isPattern isPattern id
      exact ⟨message, Except.error.inj (failed.symm.trans malformed)⟩
  · intro pattern compiled
    have isPattern : Pattern.IsPattern text.toList := by
      by_contra noPattern
      obtain ⟨message, failed⟩ := Pattern.exists_compile_of_not_isPattern noPattern id
      exact nomatch compiled.symm.trans failed
    rw [Pattern.compile_of_isPattern isPattern] at compiled
    cases compiled
    refine ⟨rfl, ?_, ?_, ?_⟩
    · rintro keyword rfl
      rfl
    · rintro keyword rfl marked
      simp [marked]
    · rintro rfl unmarked
      simp [unmarked]

/-- The engine that accepts every text whose groups can be counted. -/
def counting : Engine where
  Fits := fun _ => True
  groups text :=
    match Expression.count? text with
    | none => .error "not an expression"
    | some count => .ok count
  groups_eq_ok := by
    intro text count isFlagged _
    rw [Expression.count?_of_isFlagged isFlagged]

/-- Angle brackets, an operator and a marked keyword stand around the anchor. -/
theorem counting_compile_marked :
    let tokens : List Token :=
      [.literal 'm', .literal 'u', .literal 's', .literal 't', .blanks, .literal '<', .anchor,
        .literal '(', .any, .lineEnd]
    counting.compile "draw" "*must*  <<^>(<...><eol>" none = .ok ⟨tokens, .must⟩ ∧
      counting.groups (Token.regularExpression tokens) = .ok 1 := by
  intro tokens
  have isPattern : Pattern.compile "draw" "*must*  <<^>(<...><eol>" none = .ok ⟨tokens, .must⟩ := by
    cbv
  have tokens_eq : Token.ofProse "must  <<^>(<...><eol>" = tokens := by cbv
  have oneAnchor : Text.occurrences "<^>" "must  <<^>(<...><eol>" = 1 := by cbv
  obtain ⟨-, -, -, counted, unreachable, -⟩ :=
    @compile_eq_error_iff counting "draw" "*must*  <<^>(<...><eol>" none trivial
  have groups_eq := counted "must  <<^>(<...><eol>" trivial
  rw [tokens_eq, oneAnchor] at groups_eq
  exact ⟨unreachable.trans isPattern, groups_eq⟩

end Engine

end Prose
end Conformance
