import Conformance.Proofs.Prose.Expression
import Conformance.Proofs.Prose.Offset
import Conformance.Proofs.Prose.Reading
import Mathlib.Data.List.Forall2

/-!
# The preferred match

A match gives each token a part of the text, one part behind the other.  Of two matches that begin
at the same place one is preferred: at the first token with different parts it has the part that
the token likes better, for the end of a line the shorter one and for every other token the longer
one.

The main statement is that a pattern is found exactly where some part of the text matches it, and
that its offset is the place of the anchor in the preferred one among the earliest matches.
-/

namespace Conformance
namespace Prose

/-- The texts that a token matches. -/
def Token.Takes : Token → List Char → Prop
  | .anchor, part => part = []
  | .any, part => part ≠ []
  | .lineEnd, part =>
      ∃ run, part = run ++ ['\n'] ∧ ∀ character ∈ run, Text.isBlank character = true
  | .blanks, part => part ≠ [] ∧ ∀ character ∈ part, Text.isBlank character = true
  | .literal expected, part => part = [expected]

/-- The first text is preferred to the second one by the token: for the end of a line it is
shorter, otherwise longer. -/
def Token.Prefers : Token → List Char → List Char → Prop
  | .lineEnd, part, other => part.length < other.length
  | _, part, other => other.length < part.length

/-- The first parts are preferred to the second ones by the tokens: the first token whose parts
differ prefers its part. -/
inductive Preferred : List Token → List (List Char) → List (List Char) → Prop where
  /-- The parts of the first token differ. -/
  | here
      {token : Token}
      {tokens : List Token}
      {part other : List Char}
      {parts others : List (List Char)}
      (prefers : token.Prefers part other) :
      Preferred (token :: tokens) (part :: parts) (other :: others)
  /-- The first token has the same part in both. -/
  | later
      {token : Token}
      {tokens : List Token}
      {part : List Char}
      {parts others : List (List Char)}
      (rest : Preferred tokens parts others) :
      Preferred (token :: tokens) (part :: parts) (part :: others)

/-- The tokens match the parts, and the parts stand in the text behind `before`. -/
structure IsMatch
    (tokens : List Token)
    (text before : List Char)
    (parts : List (List Char)) : Prop where
  /-- Every token matches its part. -/
  takes : List.Forall₂ Token.Takes tokens parts
  /-- The parts follow each other in the text. -/
  stands : before ++ parts.flatten <+: text

/-- A match that begins as early as any other, and is preferred to the others that begin there. -/
structure IsFirstMatch
    (tokens : List Token)
    (text before : List Char)
    (parts : List (List Char)) : Prop extends IsMatch tokens text before parts where
  /-- No match begins earlier. -/
  earliest : ∀ start others, IsMatch tokens text start others → before.length ≤ start.length
  /-- No match that begins there is preferred to it. -/
  preferred : ∀ others, IsMatch tokens text before others →
    others = parts ∨ Preferred tokens parts others

/-- Taking one more character does not change which part a token prefers. -/
theorem Preferred.cons_part
    {token : Token}
    {tokens : List Token}
    {character : Char}
    {part other : List Char}
    {parts others : List (List Char)}
    (preferred : Preferred (token :: tokens) (part :: parts) (other :: others)) :
    Preferred (token :: tokens) ((character :: part) :: parts)
      ((character :: other) :: others) := by
  cases preferred with
  | here prefers =>
      apply Preferred.here
      cases token <;> simpa [Token.Prefers] using prefers
  | later rest => exact .later rest

/-- What a match has in front of its anchor. -/
def beforeAnchor (tokens : List Token) (parts : List (List Char)) : List Char :=
  (parts.take (tokens.idxOf .anchor)).flatten

section

variable {token : Token} {tokens : List Token} {character : Char} {text part : List Char}
variable {parts : List (List Char)}

theorem beforeAnchor_anchor_cons (tokens : List Token) (parts : List (List Char)) :
    beforeAnchor (.anchor :: tokens) parts = [] := by
  rw [beforeAnchor, List.idxOf_cons_self, List.take_zero, List.flatten_nil]

theorem beforeAnchor_cons_cons (notAnchor : token ≠ .anchor) :
    beforeAnchor (token :: tokens) (part :: parts) = part ++ beforeAnchor tokens parts := by
  rw [beforeAnchor, List.idxOf_cons_ne _ notAnchor, List.take_succ_cons, List.flatten_cons,
    beforeAnchor]

/-! ## One character of a match -/

/-- Whether a token may match its last character. -/
def Token.ends : Token → Char → Bool
  | .anchor, _ => false
  | .any, _ => true
  | .lineEnd, character => character = '\n'
  | .blanks, character => Text.isBlank character
  | .literal expected, character => character = expected

/-- Whether a token may match a character and go on. -/
def Token.continues : Token → Char → Bool
  | .anchor, _ => false
  | .any, _ => true
  | .lineEnd, character => Text.isBlank character
  | .blanks, character => Text.isBlank character
  | .literal _, _ => false

theorem Token.ne_nil_of_takes (notAnchor : token ≠ .anchor) (takes : token.Takes part) :
    part ≠ [] := by
  rintro rfl
  cases token <;> simp_all [Token.Takes]

/-- A token ends with the first character of its part or goes on behind it. -/
theorem Token.takes_cons_iff (notAnchor : token ≠ .anchor) :
    token.Takes (character :: part) ↔
      (token.ends character ∧ part = []) ∨ (token.continues character ∧ token.Takes part) := by
  cases token with
  | anchor => exact absurd rfl notAnchor
  | any => cases part <;> simp [Token.Takes, Token.ends, Token.continues]
  | lineEnd =>
      simp only [Token.Takes, Token.ends, Token.continues]
      constructor
      · rintro ⟨run, part_eq, allBlank⟩
        cases run with
        | nil => simp_all
        | cons first run =>
            simp only [List.cons_append, List.cons.injEq] at part_eq
            obtain ⟨rfl, rfl⟩ := part_eq
            rw [List.forall_mem_cons] at allBlank
            exact .inr ⟨allBlank.1, run, rfl, allBlank.2⟩
      · rintro (⟨isBreak, rfl⟩ | ⟨isBlank, run, rfl, allBlank⟩)
        · exact ⟨[], by simpa using isBreak, by simp⟩
        · exact ⟨character :: run, rfl, List.forall_mem_cons.2 ⟨isBlank, allBlank⟩⟩
  | blanks =>
      cases part <;> simp [Token.Takes, Token.ends, Token.continues]
  | literal expected => simp [Token.Takes, Token.ends, Token.continues]

/-- The token of a match ends with the first character of the text or goes on behind it. -/
theorem isMatch_cons_cons_iff
    (notAnchor : token ≠ .anchor)
    {matched : List (List Char)} :
    IsMatch (token :: tokens) (character :: text) [] matched ↔
      (token.ends character ∧ ∃ parts, IsMatch tokens text [] parts ∧
        matched = [character] :: parts) ∨
      (token.continues character ∧ ∃ part parts, IsMatch (token :: tokens) text [] (part :: parts) ∧
        matched = (character :: part) :: parts) := by
  constructor
  · rintro ⟨takes, stands⟩
    obtain ⟨part, parts, head, tail, rfl⟩ := List.forall₂_cons_left_iff.1 takes
    obtain ⟨first, part, rfl⟩ := List.exists_cons_of_ne_nil (Token.ne_nil_of_takes notAnchor head)
    simp only [List.nil_append, List.flatten_cons, List.cons_append, List.cons_prefix_cons]
      at stands
    obtain ⟨rfl, stands⟩ := stands
    rcases (Token.takes_cons_iff notAnchor).1 head with ⟨ends, rfl⟩ | ⟨continues, further⟩
    · exact .inl ⟨ends, parts, ⟨tail, stands⟩, rfl⟩
    · exact .inr ⟨continues, part, parts, ⟨.cons further tail, stands⟩, rfl⟩
  · rintro (⟨ends, parts, ⟨takes, stands⟩, rfl⟩ | ⟨continues, part, parts, ⟨takes, stands⟩, rfl⟩)
    · exact ⟨.cons ((Token.takes_cons_iff notAnchor).2 (.inl ⟨ends, rfl⟩)) takes,
        List.cons_prefix_cons.2 ⟨rfl, stands⟩⟩
    · rw [List.forall₂_cons] at takes
      exact ⟨.cons ((Token.takes_cons_iff notAnchor).2 (.inr ⟨continues, takes.1⟩)) takes.2,
        List.cons_prefix_cons.2 ⟨rfl, stands⟩⟩

theorem ne_nil_of_isMatch_cons_cons
    (notAnchor : token ≠ .anchor)
    (isMatch : IsMatch (token :: tokens) text [] (part :: parts)) :
    part ≠ [] :=
  Token.ne_nil_of_takes notAnchor (List.forall₂_cons.1 isMatch.takes).1

theorem ne_nil_of_isMatch_cons (isMatch : IsMatch (token :: tokens) text [] parts) :
    parts ≠ [] := by
  rintro rfl
  exact nomatch isMatch.takes

theorem not_isMatch_cons_nil
    (notAnchor : token ≠ .anchor)
    (parts : List (List Char)) :
    ¬ IsMatch (token :: tokens) [] [] parts := by
  rintro ⟨takes, stands⟩
  obtain ⟨part, others, head, -, rfl⟩ := List.forall₂_cons_left_iff.1 takes
  simp_all [Token.ne_nil_of_takes notAnchor head]

theorem isMatch_anchor_cons_iff {matched : List (List Char)} :
    IsMatch (.anchor :: tokens) text [] matched ↔
      ∃ parts, IsMatch tokens text [] parts ∧ matched = [] :: parts := by
  constructor
  · rintro ⟨takes, stands⟩
    obtain ⟨part, parts, rfl, tail, rfl⟩ := List.forall₂_cons_left_iff.1 takes
    exact ⟨parts, ⟨tail, stands⟩, rfl⟩
  · rintro ⟨parts, ⟨takes, stands⟩, rfl⟩
    exact ⟨.cons rfl takes, stands⟩

/-- The two ways to match a character, in the order that the token prefers. -/
theorem anchor?_cons_cons (notAnchor : token ≠ .anchor) :
    anchor? (token :: tokens) (character :: text) =
      let ended := if token.ends character then anchor? tokens text else none
      let continued := if token.continues character then anchor? (token :: tokens) text else none
      if token = .lineEnd then ended <|> continued else continued <|> ended := by
  cases token with
  | anchor => exact absurd rfl notAnchor
  | any => simp [anchor?, Token.ends, Token.continues]
  | lineEnd =>
      by_cases isBreak : character = '\n' <;> cases isBlank : Text.isBlank character <;>
        simp [anchor?, Token.ends, Token.continues, isBreak, isBlank]
  | blanks =>
      cases isBlank : Text.isBlank character <;>
        simp [anchor?, Token.ends, Token.continues, isBlank]
  | literal expected => simp [anchor?, Token.ends, Token.continues]

end

/-! ## Answers -/

/-- What an answer says about matches of some kind: there is none, or the preferred one has what is
answered behind its anchor. -/
def Answers
    (tokens : List Token)
    (text : List Char)
    (kind : List (List Char) → Prop) :
    Option (List Char) → Prop
  | none => ∀ parts, ¬ kind parts
  | some rest =>
      ∃ parts, kind parts ∧
        (∀ others, kind others → others = parts ∨ Preferred tokens parts others) ∧
        text = beforeAnchor tokens parts ++ rest

namespace Answers

variable {token : Token} {tokens : List Token} {text : List Char}
variable {kind other : List (List Char) → Prop} {answer second : Option (List Char)}

theorem congr
    (answers : Answers tokens text kind answer)
    (same : ∀ parts, kind parts ↔ other parts) :
    Answers tokens text other answer := by
  rwa [← funext fun parts => propext (same parts)]

/-- An answer that is asked for under a condition. -/
theorem ifTrue
    (answers : Answers tokens text kind answer)
    (condition : Bool) :
    Answers tokens text (fun parts => condition = true ∧ kind parts)
      (if condition then answer else none) := by
  cases condition with
  | true => exact answers.congr (by simp)
  | false => simp [Answers]

/-- Matches of a kind that is preferred are asked for first. -/
theorem orElse
    (first : Answers tokens text kind answer)
    (later : Answers tokens text other second)
    (preferred : ∀ parts others, kind parts → other others → Preferred tokens parts others) :
    Answers tokens text (fun parts => kind parts ∨ other parts) (answer <|> second) := by
  cases answer with
  | none => exact later.congr fun parts => by simp [first parts]
  | some rest =>
      obtain ⟨parts, ofKind, best, parts_eq⟩ := first
      refine ⟨parts, .inl ofKind, ?_, parts_eq⟩
      rintro others (sameKind | otherKind)
      · exact best others sameKind
      · exact .inr (preferred parts others ofKind otherKind)

/-- The anchor stands in front of what is matched. -/
theorem anchor (answers : Answers tokens text kind answer) :
    Answers (.anchor :: tokens) text (fun matched => ∃ parts, kind parts ∧ matched = [] :: parts)
      (answer.map fun _ => text) := by
  cases answer with
  | none =>
      rintro _ ⟨parts, ofKind, rfl⟩
      exact answers parts ofKind
  | some rest =>
      obtain ⟨parts, ofKind, best, -⟩ := answers
      refine ⟨[] :: parts, ⟨parts, ofKind, rfl⟩, ?_, by rw [beforeAnchor_anchor_cons]; rfl⟩
      rintro _ ⟨others, sameKind, rfl⟩
      exact (best others sameKind).imp (congrArg _) .later

/-- A token that matches one character only. -/
theorem ended
    (character : Char)
    (notAnchor : token ≠ .anchor)
    (answers : Answers tokens text kind answer) :
    Answers (token :: tokens) (character :: text)
      (fun matched => ∃ parts, kind parts ∧ matched = [character] :: parts) answer := by
  cases answer with
  | none =>
      rintro _ ⟨parts, ofKind, rfl⟩
      exact answers parts ofKind
  | some rest =>
      obtain ⟨parts, ofKind, best, text_eq⟩ := answers
      refine ⟨[character] :: parts, ⟨parts, ofKind, rfl⟩, ?_, ?_⟩
      · rintro _ ⟨others, sameKind, rfl⟩
        exact (best others sameKind).imp (congrArg _) .later
      · rw [beforeAnchor_cons_cons notAnchor, text_eq]
        rfl

/-- A token that matches a character and goes on. -/
theorem continued
    (character : Char)
    (notAnchor : token ≠ .anchor)
    (answers : Answers (token :: tokens) text kind answer)
    (nonempty : ∀ parts, kind parts → parts ≠ []) :
    Answers (token :: tokens) (character :: text)
      (fun matched => ∃ part parts, kind (part :: parts) ∧ matched = (character :: part) :: parts)
      answer := by
  cases answer with
  | none =>
      rintro _ ⟨part, parts, ofKind, rfl⟩
      exact answers _ ofKind
  | some rest =>
      obtain ⟨matched, ofKind, best, text_eq⟩ := answers
      obtain ⟨part, parts, rfl⟩ := List.exists_cons_of_ne_nil (nonempty matched ofKind)
      refine ⟨(character :: part) :: parts, ⟨part, parts, ofKind, rfl⟩, ?_, ?_⟩
      · rintro _ ⟨other, others, sameKind, rfl⟩
        rcases best _ sameKind with same | preferred
        · obtain ⟨rfl, rfl⟩ := List.cons.inj same
          exact .inl rfl
        · exact .inr preferred.cons_part
      · rw [beforeAnchor_cons_cons notAnchor, text_eq, beforeAnchor_cons_cons notAnchor]
        simp

end Answers

section

variable {token : Token} {tokens : List Token} {character : Char} {text part : List Char}
variable {parts others : List (List Char)}

/-- The end of a line is rather matched at once. -/
theorem preferred_ended (nonempty : part ≠ []) :
    Preferred (.lineEnd :: tokens) ([character] :: parts) ((character :: part) :: others) := by
  have longer := List.length_pos_iff.2 nonempty
  exact .here (by simpa [Token.Prefers] using longer)

/-- Any other token rather goes on. -/
theorem preferred_continued (notLineEnd : token ≠ .lineEnd) (nonempty : part ≠ []) :
    Preferred (token :: tokens) ((character :: part) :: others) ([character] :: parts) := by
  have longer := List.length_pos_iff.2 nonempty
  apply Preferred.here
  cases token <;> simp_all [Token.Prefers]

/-- The answers behind a character, for the tokens that follow and for the same token again, give
the answer in front of it. -/
theorem answers_cons_cons
    (notAnchor : token ≠ .anchor)
    (later : Answers tokens text (IsMatch tokens text []) (anchor? tokens text))
    (again : Answers (token :: tokens) text (IsMatch (token :: tokens) text [])
      (anchor? (token :: tokens) text)) :
    Answers (token :: tokens) (character :: text)
      (IsMatch (token :: tokens) (character :: text) [])
      (anchor? (token :: tokens) (character :: text)) := by
  have ended := (later.ended character notAnchor).ifTrue (token.ends character)
  have continued :=
    (again.continued character notAnchor fun _ => ne_nil_of_isMatch_cons).ifTrue
      (token.continues character)
  rw [anchor?_cons_cons notAnchor]
  by_cases isLineEnd : token = .lineEnd
  · subst isLineEnd
    refine (ended.orElse continued ?_).congr fun _ => (isMatch_cons_cons_iff notAnchor).symm
    rintro _ _ ⟨-, parts, -, rfl⟩ ⟨-, part, others, isMatch, rfl⟩
    exact preferred_ended (ne_nil_of_isMatch_cons_cons notAnchor isMatch)
  · simp only [if_neg isLineEnd]
    refine (continued.orElse ended ?_).congr fun _ =>
      or_comm.trans (isMatch_cons_cons_iff notAnchor).symm
    rintro _ _ ⟨-, part, others, isMatch, rfl⟩ ⟨-, parts, -, rfl⟩
    exact preferred_continued isLineEnd (ne_nil_of_isMatch_cons_cons notAnchor isMatch)

end

/-- The answer that is looked for says which match at the beginning of the text is preferred. -/
theorem answers_anchor? (tokens : List Token) (text : List Char) :
    Answers tokens text (IsMatch tokens text []) (anchor? tokens text) := by
  induction tokens generalizing text with
  | nil =>
      rw [anchor?]
      refine ⟨[], ⟨.nil, List.nil_prefix⟩, ?_, rfl⟩
      rintro others ⟨takes, -⟩
      exact .inl (List.forall₂_nil_left_iff.1 takes)
  | cons token tokens inductionHypothesis =>
      by_cases isAnchor : token = .anchor
      · subst isAnchor
        rw [anchor?]
        exact (inductionHypothesis text).anchor.congr fun _ => isMatch_anchor_cons_iff.symm
      · induction text with
        | nil =>
            have absent : anchor? (token :: tokens) [] = none := by
              cases token <;> simp_all [anchor?]
            rw [absent]
            exact not_isMatch_cons_nil isAnchor
        | cons character text further =>
            exact answers_cons_cons isAnchor (inductionHypothesis text) further

/-! ## The first match -/

theorem find?_nil (tokens : List Token) : find? tokens [] = anchor? tokens [] := by
  rw [find?, table_eq, endings]
  cases answer : anchor? tokens [] <;> simp [answer]

theorem find?_cons (tokens : List Token) (character : Char) (text : List Char) :
    find? tokens (character :: text) =
      (anchor? tokens (character :: text) <|> find? tokens text) := by
  rw [find?, find?, table_eq, table_eq, endings, List.map_cons, List.findSome?_cons]
  cases anchor? tokens (character :: text) <;> rfl

theorem isMatch_cons_cons
    {tokens : List Token}
    {character : Char}
    {text before : List Char}
    {parts : List (List Char)} :
    IsMatch tokens (character :: text) (character :: before) parts ↔
      IsMatch tokens text before parts := by
  constructor
  · rintro ⟨takes, stands⟩
    exact ⟨takes, (List.cons_prefix_cons.1 stands).2⟩
  · rintro ⟨takes, stands⟩
    exact ⟨takes, List.cons_prefix_cons.2 ⟨rfl, stands⟩⟩

/-- A match begins at the first character or behind it. -/
theorem nil_or_cons_of_isMatch
    {tokens : List Token}
    {character : Char}
    {text before : List Char}
    {parts : List (List Char)}
    (isMatch : IsMatch tokens (character :: text) before parts) :
    before = [] ∨ ∃ later, before = character :: later ∧ IsMatch tokens text later parts := by
  cases before with
  | nil => exact .inl rfl
  | cons first later =>
      obtain ⟨rfl, -⟩ := List.cons_prefix_cons.1 isMatch.stands
      exact .inr ⟨later, rfl, isMatch_cons_cons.1 isMatch⟩

/-- The first match behind a character is the first one if none begins at the character. -/
theorem IsFirstMatch.cons
    {tokens : List Token}
    {character : Char}
    {text before : List Char}
    {parts : List (List Char)}
    (absent : ∀ others, ¬ IsMatch tokens (character :: text) [] others)
    (first : IsFirstMatch tokens text before parts) :
    IsFirstMatch tokens (character :: text) (character :: before) parts where
  toIsMatch := isMatch_cons_cons.2 first.toIsMatch
  earliest := by
    intro start others isMatch
    rcases nil_or_cons_of_isMatch isMatch with rfl | ⟨later, rfl, behind⟩
    · exact absurd isMatch (absent others)
    · exact Nat.succ_le_succ (first.earliest later others behind)
  preferred others isMatch := first.preferred others (isMatch_cons_cons.1 isMatch)

theorem exists_isFirstMatch_of_anchor?_eq_some
    {tokens : List Token}
    {text rest : List Char}
    (found : anchor? tokens text = some rest) :
    ∃ before parts, IsFirstMatch tokens text before parts ∧
      text = before ++ beforeAnchor tokens parts ++ rest := by
  have answers := answers_anchor? tokens text
  rw [found] at answers
  obtain ⟨parts, isMatch, best, text_eq⟩ := answers
  exact ⟨[], parts, ⟨isMatch, fun _ _ _ => Nat.zero_le _, best⟩, text_eq⟩

theorem not_isMatch_of_anchor?_eq_none
    {tokens : List Token}
    {text : List Char}
    (absent : anchor? tokens text = none)
    (parts : List (List Char)) :
    ¬ IsMatch tokens text [] parts := by
  have answers := answers_anchor? tokens text
  rw [absent] at answers
  exact answers parts

/-- What is found stands behind the anchor of the first match. -/
theorem exists_isFirstMatch_of_find?_eq_some
    {tokens : List Token}
    {text rest : List Char}
    (found : find? tokens text = some rest) :
    ∃ before parts, IsFirstMatch tokens text before parts ∧
      text = before ++ beforeAnchor tokens parts ++ rest := by
  induction text with
  | nil =>
      rw [find?_nil] at found
      exact exists_isFirstMatch_of_anchor?_eq_some found
  | cons character text inductionHypothesis =>
      rw [find?_cons] at found
      cases answer : anchor? tokens (character :: text) with
      | some other =>
          rw [answer] at found
          obtain rfl := Option.some.inj found
          exact exists_isFirstMatch_of_anchor?_eq_some answer
      | none =>
          rw [answer] at found
          obtain ⟨before, parts, first, text_eq⟩ := inductionHypothesis found
          refine ⟨character :: before, parts,
            first.cons (not_isMatch_of_anchor?_eq_none answer), ?_⟩
          rw [text_eq]
          rfl

/-- Nothing is found only if there is no match. -/
theorem not_isMatch_of_find?_eq_none
    {tokens : List Token}
    {text : List Char}
    (absent : find? tokens text = none)
    (before : List Char)
    (parts : List (List Char)) :
    ¬ IsMatch tokens text before parts := by
  intro isMatch
  induction text generalizing before with
  | nil =>
      rw [find?_nil] at absent
      obtain rfl : before = [] := (List.append_eq_nil_iff.1 (List.prefix_nil.1 isMatch.stands)).1
      exact not_isMatch_of_anchor?_eq_none absent parts isMatch
  | cons character text inductionHypothesis =>
      rw [find?_cons] at absent
      cases answer : anchor? tokens (character :: text) with
      | some rest => simp [answer] at absent
      | none =>
          rw [answer] at absent
          rcases nil_or_cons_of_isMatch isMatch with rfl | ⟨later, rfl, behind⟩
          · exact not_isMatch_of_anchor?_eq_none answer parts isMatch
          · exact inductionHypothesis absent later behind

/-! ## There is one first match -/

theorem Token.Prefers.asymm
    {token : Token}
    {part other : List Char}
    (prefers : token.Prefers part other) :
    ¬ token.Prefers other part := by
  cases token <;> exact Nat.lt_asymm prefers

theorem Preferred.asymm
    {tokens : List Token}
    {parts others : List (List Char)}
    (preferred : Preferred tokens parts others) :
    ¬ Preferred tokens others parts := by
  induction preferred with
  | here prefers =>
      rintro (opposed | _)
      · exact prefers.asymm opposed
      · exact prefers.asymm prefers
  | later _ inductionHypothesis =>
      rintro (opposed | opposed)
      · exact opposed.asymm opposed
      · exact inductionHypothesis opposed

theorem IsFirstMatch.eq
    {tokens : List Token}
    {text before start : List Char}
    {parts others : List (List Char)}
    (first : IsFirstMatch tokens text before parts)
    (second : IsFirstMatch tokens text start others) :
    before = start ∧ parts = others := by
  have sameLength : before.length = start.length :=
    Nat.le_antisymm (first.earliest _ _ second.toIsMatch) (second.earliest _ _ first.toIsMatch)
  have isPrefix := (List.prefix_append before _).trans first.stands
  have isPrefixToo := (List.prefix_append start _).trans second.stands
  have nested := List.prefix_of_prefix_length_le isPrefix isPrefixToo (Nat.le_of_eq sameLength)
  obtain rfl := nested.eq_of_length
    sameLength
  refine ⟨rfl, ?_⟩
  rcases first.preferred others second.toIsMatch with same | preferred
  · exact same.symm
  · rcases second.preferred parts first.toIsMatch with same | opposed
    · exact same
    · exact absurd opposed preferred.asymm

/-! ## Patterns -/

/-- The tokens match the text as a whole. -/
def Matches (tokens : List Token) (text : List Char) : Prop :=
  ∃ parts, List.Forall₂ Token.Takes tokens parts ∧ parts.flatten = text

theorem exists_isMatch_iff {tokens : List Token} {text : List Char} :
    (∃ before parts, IsMatch tokens text before parts) ↔
      ∃ part, part <:+: text ∧ Matches tokens part := by
  constructor
  · rintro ⟨before, parts, takes, after, text_eq⟩
    exact ⟨parts.flatten, ⟨before, after, text_eq⟩, parts, takes, rfl⟩
  · rintro ⟨_, ⟨before, after, text_eq⟩, parts, takes, rfl⟩
    exact ⟨before, parts, takes, after, text_eq⟩

theorem isSome_find?_iff {tokens : List Token} {text : List Char} :
    (find? tokens text).isSome ↔ ∃ before parts, IsMatch tokens text before parts := by
  cases found : find? tokens text with
  | none =>
      have noMatch := not_isMatch_of_find?_eq_none found
      simp [noMatch]
  | some rest =>
      obtain ⟨before, parts, first, -⟩ := exists_isFirstMatch_of_find?_eq_some found
      simpa using ⟨before, parts, first.toIsMatch⟩

namespace Pattern

/-- The offset of a pattern is the place of the anchor in the first match. -/
theorem anchorOffset?_eq_some_iff
    {pattern : Pattern}
    {text : String}
    {offset : Nat} :
    pattern.anchorOffset? text = some offset ↔
      ∃ before parts, IsFirstMatch pattern.tokens text.toList before parts ∧
        Text.byteSize (before ++ beforeAnchor pattern.tokens parts) = offset := by
  have offset_eq : ∀ {rest before parts},
      text.toList = before ++ beforeAnchor pattern.tokens parts ++ rest →
        Text.byteSize text.toList - Text.byteSize rest =
          Text.byteSize (before ++ beforeAnchor pattern.tokens parts) := by
    intro rest before parts text_eq
    rw [text_eq, Text.byteSize_append _ rest, Nat.add_sub_cancel]
  rw [anchorOffset?, Option.map_eq_some_iff]
  constructor
  · rintro ⟨rest, found, rfl⟩
    obtain ⟨before, parts, first, text_eq⟩ := exists_isFirstMatch_of_find?_eq_some found
    exact ⟨before, parts, first, (offset_eq text_eq).symm⟩
  · rintro ⟨before, parts, first, rfl⟩
    obtain ⟨rest, found⟩ := Option.isSome_iff_exists.1
      (isSome_find?_iff.2 ⟨before, parts, first.toIsMatch⟩)
    obtain ⟨start, others, second, text_eq⟩ := exists_isFirstMatch_of_find?_eq_some found
    obtain ⟨rfl, rfl⟩ := first.eq second
    exact ⟨rest, found, offset_eq text_eq⟩

theorem ofText_eq_ok
    {given : Option Keyword}
    {text : List Char}
    {pattern : Pattern}
    (isPattern : ofText given text = .ok pattern) :
    pattern.tokens = Token.ofProse (unmark text).prose ∧
      Text.occurrences (Text.chars "<^>") (unmark text).prose = 1 := by
  simp only [ofText] at isPattern
  split at isPattern
  · exact nomatch isPattern
  · split at isPattern
    · exact nomatch isPattern
    · next oneAnchor =>
        obtain rfl := Except.ok.inj isPattern
        exact ⟨rfl, Decidable.not_not.1 oneAnchor⟩

theorem ofText_of_compile_eq_ok
    {id text : String}
    {given : Option Keyword}
    {pattern : Pattern}
    (compiled : compile id text given = .ok pattern) :
    ofText given text.toList = .ok pattern := by
  rw [compile] at compiled
  cases answer : ofText given text.toList with
  | error fault => simp [answer, Except.mapError] at compiled
  | ok other => simpa [answer, Except.mapError] using compiled

/-- A pattern is the one reading of its prose, its expression stands for the same tokens, and one
of them is the anchor.  In every text the pattern is found exactly if a part of the text matches
its tokens.  Its offset is the place of the anchor in the first match, the preferred one among the
earliest, and a boundary of the text. -/
theorem anchorOffset?_of_compile
    {id text : String}
    {given : Option Keyword}
    {pattern : Pattern}
    (compiled : compile id text given = .ok pattern) :
    (∀ tokens, Reads (unmark text.toList).prose tokens ↔ tokens = pattern.tokens) ∧
      Token.ofExpression? (Token.regularExpression pattern.tokens) = some pattern.tokens ∧
      pattern.tokens.count .anchor = 1 ∧
      ∀ searched : String,
        ((pattern.anchorOffset? searched).isSome ↔
          ∃ part, part <:+: searched.toList ∧ Matches pattern.tokens part) ∧
        (∀ offset, pattern.anchorOffset? searched = some offset ↔
          ∃ before parts, IsFirstMatch pattern.tokens searched.toList before parts ∧
            Text.byteSize (before ++ beforeAnchor pattern.tokens parts) = offset) ∧
        ∀ offset, pattern.anchorOffset? searched = some offset →
          Text.isBoundary offset searched.toList = true := by
  obtain ⟨tokens_eq, oneAnchor⟩ := ofText_eq_ok (ofText_of_compile_eq_ok compiled)
  refine ⟨fun tokens => ?_, Token.ofExpression?_regularExpression pattern.tokens, ?_,
    fun searched => ⟨?_, fun offset => anchorOffset?_eq_some_iff,
      fun offset => isBoundary_of_anchorOffset?_eq_some⟩⟩
  · rw [tokens_eq]
    exact reads_iff
  · rw [count_anchor_eq_occurrences (reads_iff.2 tokens_eq), oneAnchor]
  · rw [anchorOffset?, Option.isSome_map, isSome_find?_iff, exists_isMatch_iff]

/-- Behind a marked keyword any text, blanks and the end of a line compete for the characters in
front of `x`. -/
theorem anchorOffset?_of_compile_competing :
    let tokens : List Token :=
      "must".toList.map .literal ++ [.any, .blanks, .anchor, .lineEnd, .literal 'x']
    compile "draw" "*must*<...> <^><eol>x" none = .ok ⟨tokens, .must⟩ ∧
      ∃ before parts, IsFirstMatch tokens "I must a é  \n\nx".toList before parts ∧
        Text.byteSize (before ++ beforeAnchor tokens parts) = 14 := by
  intro tokens
  have compiled : compile "draw" "*must*<...> <^><eol>x" none = .ok ⟨tokens, .must⟩ := by cbv
  have offset : (Pattern.mk tokens .must).anchorOffset? "I must a é  \n\nx" = some 14 := by
    decide +kernel
  exact ⟨compiled, (((anchorOffset?_of_compile compiled).2.2.2 _).2.1 14).1 offset⟩

end Pattern

end Prose
end Conformance
