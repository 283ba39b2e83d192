import Conformance.Proofs.Boundary.Enumeration
import Conformance.Proofs.Text.Occurrence
import Conformance.Proofs.Translator.Lines

/-!
# Where the text of an expansion comes from

The lines of an expansion are lines of the body, except that a call at boundaries becomes the lines
of its calls.  These are put together from the callable, the values and the tail.  A word that
fits into none of the gaps between them stands in the body as it is, unless it begins in front of a
call and ends in its callable.
-/

namespace Conformance

open scoped Text

namespace Boundary

variable {α : Type} {argument : Argument α} {arguments : List (Argument α)} {values : List α}

/-- The values are values of the arguments. -/
def TakenFrom (arguments : List (Argument α)) (values : List α) : Prop :=
  ∀ value ∈ values, ∃ argument ∈ arguments, value ∈ argument.values

theorem TakenFrom.cons
    {value : α}
    (isValue : value ∈ argument.values)
    (others : TakenFrom arguments values) :
    TakenFrom (argument :: arguments) (value :: values) := by
  intro other member
  rcases List.mem_cons.1 member with rfl | later
  · exact ⟨argument, List.mem_cons_self, isValue⟩
  · obtain ⟨source, isSource, fromSource⟩ := others other later
    exact ⟨source, List.mem_cons_of_mem _ isSource, fromSource⟩

theorem takenFrom_map_valid (arguments : List (Argument α)) :
    TakenFrom arguments (arguments.map Argument.valid) := by
  intro value member
  obtain ⟨argument, isArgument, rfl⟩ := List.mem_map.1 member
  exact ⟨argument, isArgument, List.mem_cons_self⟩

theorem takenFrom_of_mem_singles (isCall : values ∈ singles arguments) :
    TakenFrom arguments values := by
  induction arguments generalizing values with
  | nil => cases isCall
  | cons argument others inductionHypothesis =>
      rcases List.mem_append.1 isCall with atFirst | later
      · obtain ⟨invalid, isInvalid, rfl⟩ := List.mem_map.1 atFirst
        exact .cons (List.mem_cons_of_mem _ isInvalid) (takenFrom_map_valid others)
      · obtain ⟨call, isSingle, rfl⟩ := List.mem_map.1 later
        exact .cons List.mem_cons_self (inductionHypothesis isSingle)

theorem takenFrom_of_mem_combinations
    {substituted : Bool}
    (isCall : values ∈ combinations substituted arguments) :
    TakenFrom arguments values := by
  induction arguments generalizing substituted values with
  | nil => cases isCall
  | cons argument others inductionHypothesis =>
      rcases List.mem_append.1 isCall with atFirst | later
      · cases isInvalid : argument.invalid with
        | nil => simp [isInvalid] at atFirst
        | cons invalid more =>
            have isValue : invalid ∈ argument.values := by simp [Argument.values, isInvalid]
            simp only [isInvalid] at atFirst
            rcases List.mem_append.1 atFirst with alone | several
            · split at alone
              · obtain rfl := List.mem_singleton.1 alone
                exact .cons isValue (takenFrom_map_valid others)
              · cases alone
            · obtain ⟨call, isCombination, rfl⟩ := List.mem_map.1 several
              exact .cons isValue (inductionHypothesis isCombination)
      · obtain ⟨call, isCombination, rfl⟩ := List.mem_map.1 later
        exact .cons List.mem_cons_self (inductionHypothesis isCombination)

/-- A call passes values of its arguments. -/
theorem takenFrom_of_mem_calls (isCall : values ∈ calls arguments) :
    TakenFrom arguments values := by
  rcases List.mem_append.1 isCall with isSingle | isCombination
  · exact takenFrom_of_mem_singles isSingle
  · exact takenFrom_of_mem_combinations isCombination

/-- Text between separators stands in what it is joined to. -/
theorem infix_intercalate_of_mem
    {separator item : List Char}
    {items : List (List Char)}
    (member : item ∈ items) :
    item <:+: separator.intercalate items := by
  induction items with
  | nil => cases member
  | cons first items inductionHypothesis =>
      cases items with
      | nil =>
          rw [List.intercalate_singleton]
          exact List.mem_singleton.1 member ▸ List.infix_rfl
      | cons next others =>
          rw [List.intercalate_cons_cons, List.append_assoc]
          rcases List.mem_cons.1 member with rfl | later
          · exact (List.prefix_append item _).isInfix
          · have inRest := (inductionHypothesis later).trans (List.suffix_append separator _).isInfix
            exact inRest.trans (List.suffix_append first _).isInfix

theorem infix_of_mem_readArgument
    {text value : List Char}
    (member : value ∈ readArgument text) :
    value <:+: text := by
  unfold readArgument at member
  split at member
  · next inner =>
      split at member
      · next written rest split =>
          have inWritten : value <:+: [' '].intercalate (written.splitOn ' ') :=
            infix_intercalate_of_mem member
          rw [List.intercalate_splitOn] at inWritten
          rw [Text.eq_of_splitLast?_eq_some split]
          exact inWritten.trans ⟨['<'], ['>'] ++ rest, by simp⟩
      · exact List.mem_singleton.1 member ▸ List.infix_rfl
  · exact List.mem_singleton.1 member ▸ List.infix_rfl

/-- The values of a written list stand in it. -/
theorem infix_of_mem_readArguments
    {text value : List Char}
    {values : List (List Char)}
    (isArgument : values ∈ readArguments text)
    (member : value ∈ values) :
    value <:+: text := by
  rw [readArguments] at isArgument
  split at isArgument
  · cases isArgument
  · obtain ⟨piece, isPiece, rfl⟩ := List.mem_map.1 isArgument
    rw [chars_separator] at isPiece
    exact (infix_of_mem_readArgument member).trans (Text.infix_of_mem_pieces isPiece)

/-- A call is made of the callable, the tail and values that stand in the written arguments. -/
theorem exists_of_mem_expand?
    {callable written tail : List Char}
    {texts : List (List Char)}
    (expands : expand? callable (readArguments written) tail = some texts)
    {text : List Char}
    (member : text ∈ texts) :
    ∃ values : List (List Char),
      text = callText callable tail values ∧ ∀ value ∈ values, value <:+: written := by
  obtain ⟨arguments, areArguments, rfl⟩ := Option.map_eq_some_iff.1 expands
  obtain ⟨values, isCall, rfl⟩ := List.mem_map.1 member
  refine ⟨values, rfl, fun value inCall => ?_⟩
  obtain ⟨argument, isArgument, isValue⟩ := takenFrom_of_mem_calls isCall value inCall
  refine infix_of_mem_readArguments ?_ isValue
  rw [(arguments?_eq_some_iff.1 areArguments).2]
  exact List.mem_map_of_mem isArgument

end Boundary

namespace Body

/-! ## Words that fit into no gap -/

/-- Every comma is followed by something other than a space. -/
def IsTight (text : List Char) : Prop :=
  ∀ front back, text = front ++ ',' :: back → ∃ next rest, back = next :: rest ∧ next ≠ ' '

theorem isTight_of_not_mem {text : List Char} (noComma : ',' ∉ text) : IsTight text := by
  rintro front back rfl
  simp at noComma

theorem IsTight.append
    {front back : List Char}
    (tightFront : IsTight front)
    (tightBack : IsTight back) :
    IsTight (front ++ back) := by
  intro before after parts
  obtain ⟨between, rfl, inBack⟩ | ⟨between, inFront, others⟩ := List.append_eq_append_iff.1 parts
  · exact tightBack between after inBack
  · cases between with
    | nil => exact tightBack [] after others.symm
    | cons first between =>
        obtain ⟨rfl, rfl⟩ := List.cons.inj others
        obtain ⟨next, rest, rfl, notSpace⟩ := tightFront before between inFront
        exact ⟨next, rest ++ back, rfl, notSpace⟩

/-- A word that fits into no gap between the operands of a call: it holds no brackets and no line
break, it does not begin with a separator, and its commas are tight. -/
structure IsSolid (word : List Char) : Prop where
  noBreak : '\n' ∉ word
  noOpening : '(' ∉ word
  noClosing : ')' ∉ word
  begins : ∃ first rest, word = first :: rest ∧ first ≠ ',' ∧ first ≠ ' '
  tight : IsTight word

variable {word : List Char}

/-- A solid word in a list of values stands in one of them. -/
theorem IsSolid.exists_infix_of_infix_intercalate
    (solid : IsSolid word)
    {values : List (List Char)}
    (occurs : word <:+: List.intercalate ", " values) :
    ∃ value ∈ values, word <:+: value := by
  obtain ⟨first, rest, isWord, notComma, notSpace⟩ := solid.begins
  rw [Boundary.chars_separator] at occurs
  induction values with
  | nil => simp [isWord] at occurs
  | cons value values inductionHypothesis =>
      cases values with
      | nil =>
          rw [List.intercalate_singleton] at occurs
          exact ⟨value, List.mem_singleton_self value, occurs⟩
      | cons next others =>
          rw [List.intercalate_cons_cons, List.append_assoc, List.infix_append_iff_ne_nil] at occurs
          obtain inValue | later | ⟨front, back, -, nonempty, parts, -, begins⟩ := occurs
          · exact ⟨value, List.mem_cons_self, inValue⟩
          · rw [isWord, List.cons_append, Text.infix_cons_iff_of_ne (Ne.symm notComma),
              List.singleton_append, Text.infix_cons_iff_of_ne (Ne.symm notSpace),
              ← isWord] at later
            obtain ⟨other, isValue, inOther⟩ := inductionHypothesis later
            exact ⟨other, List.mem_cons_of_mem _ isValue, inOther⟩
          · -- the word would reach over the separator
            obtain ⟨character, back, rfl⟩ := List.exists_cons_of_ne_nil nonempty
            obtain ⟨rfl, continues⟩ := List.cons_prefix_cons.1 begins
            obtain ⟨other, more, rfl, noSpace⟩ := solid.tight front back parts
            exact absurd (List.cons_prefix_cons.1 continues).1 noSpace

/-- A solid word in the text of a call stands in one of its parts. -/
theorem IsSolid.infix_callText
    (solid : IsSolid word)
    {before callable tail : List Char}
    {values : List (List Char)}
    (occurs : word <:+: before ++ Boundary.callText callable tail values) :
    word <:+: before ++ callable ∨ (∃ value ∈ values, word <:+: value) ∨ word <:+: tail := by
  have opening : Text.chars "(" = ['('] := by simp [Text.chars_eq_toList]
  have closing : Text.chars ")" = [')'] := by simp [Text.chars_eq_toList]
  simp only [Boundary.callText, opening, closing, List.append_assoc, List.cons_append,
    List.nil_append] at occurs
  rw [← List.append_assoc, Text.infix_append_cons_iff solid.noOpening,
    Text.infix_append_cons_iff solid.noClosing] at occurs
  exact occurs.imp_right (Or.imp_left solid.exists_infix_of_infix_intercalate)

/-! ## The lines of an expansion -/

/-- Text in front of which no call begins is kept. -/
theorem expand_cons_of_read?_eq_none
    {character : Char}
    {text : List Char}
    (absent : Directive.read? .expansion (character :: text) = none) :
    expand (character :: text) = (expand text).map (character :: ·) := by
  rw [expand, pieces_of_read?_eq_none absent, List.mapM_cons, expand]
  cases (pieces .expansion text).mapM Piece.expand <;> rfl

/-- A call takes the rest of its line. -/
theorem exists_nonfinite_of_read?_eq_some
    {line rest : List Char}
    {directive : Directive}
    (noBreak : '\n' ∉ line)
    (found : Directive.read? .expansion line = some (directive, rest)) :
    rest = [] ∧ ∃ callable arguments tail, directive = .nonfinite callable arguments tail := by
  have parts := Directive.eq_source_append_of_read?_eq_some found
  obtain ⟨text, -, isCall⟩ := Option.bind_eq_some_iff.1 found
  simp only [Directive.readNonfinite?, Option.bind_eq_bind, Option.bind_eq_some_iff,
    Option.ite_none_left_eq_some, Option.pure_def, Option.some.injEq, Prod.mk.injEq] at isCall
  obtain ⟨opened, -, closed, -, -, isDirective, rfl⟩ := isCall
  refine ⟨Text.afterFirstLine_eq_nil fun isBreak => noBreak ?_, _, _, _, isDirective.symm⟩
  rw [← Text.firstLine_append_afterFirstLine closed, List.mem_append] at isBreak
  rw [parts, List.mem_append]
  refine .inr (isBreak.resolve_left fun inFirst => ?_)
  simpa using List.mem_takeWhile_imp inFirst

/-- A line is its own expansion, or what stands in front of its only call and the lines of that
call. -/
theorem expand_line
    {line expanded : List Char}
    (noBreak : '\n' ∉ line)
    (expands : expand line = .ok expanded) :
    expanded = line ∨
      ∃ front callable arguments tail calls,
        line = front ++ (Directive.nonfinite callable arguments tail).source ∧
        Boundary.expand? callable (Boundary.readArguments arguments) tail = some calls ∧
        expanded = front ++ List.intercalate "\n" calls := by
  induction line generalizing expanded with
  | nil =>
      left
      simpa [expand, pieces, pure, Except.pure, bind, Except.bind] using expands.symm
  | cons character line inductionHypothesis =>
      cases found : Directive.read? .expansion (character :: line) with
      | none =>
          rw [expand_cons_of_read?_eq_none found] at expands
          cases expandsLine : expand line with
          | error error => simp [expandsLine, Except.map] at expands
          | ok expandedLine =>
              rw [expandsLine] at expands
              obtain rfl := Except.ok.inj expands
              have noBreakLine : '\n' ∉ line := fun later =>
                noBreak (List.mem_cons_of_mem character later)
              obtain rfl | ⟨front, callable, arguments, tail, calls, rfl, areCalls, rfl⟩ :=
                inductionHypothesis noBreakLine expandsLine
              · exact .inl rfl
              · exact .inr ⟨character :: front, callable, arguments, tail, calls, rfl, areCalls, rfl⟩
      | some item =>
          obtain ⟨directive, rest⟩ := item
          obtain ⟨rfl, callable, arguments, tail, rfl⟩ :=
            exists_nonfinite_of_read?_eq_some noBreak found
          have whole := Directive.eq_source_append_of_read?_eq_some found
          rw [expand, pieces_of_read?_eq_some found, pieces, List.mapM_cons, List.mapM_nil,
            Piece.expand] at expands
          cases areCalls : Boundary.expand? callable (Boundary.readArguments arguments) tail with
          | none => simp [areCalls, bind, Except.bind] at expands
          | some calls =>
              refine .inr ⟨[], callable, arguments, tail, calls, by simpa using whole, areCalls, ?_⟩
              simpa [areCalls, bind, Except.bind, pure, Except.pure] using expands.symm

/-- A word on one line stands in one of the lines that are put behind a text. -/
theorem infix_or_exists_of_infix_append_intercalate
    (noBreak : '\n' ∉ word)
    {front : List Char}
    {calls : List (List Char)}
    (occurs : word <:+: front ++ List.intercalate "\n" calls) :
    word <:+: front ∨ ∃ call ∈ calls, word <:+: front ++ call := by
  have lineBreak : Text.chars "\n" = ['\n'] := by simp [Text.chars_eq_toList]
  rw [lineBreak] at occurs
  induction calls generalizing front with
  | nil =>
      rw [List.intercalate_nil, List.append_nil] at occurs
      exact .inl occurs
  | cons call calls inductionHypothesis =>
      cases calls with
      | nil =>
          rw [List.intercalate_singleton] at occurs
          exact .inr ⟨call, List.mem_singleton_self call, occurs⟩
      | cons next others =>
          rw [List.intercalate_cons_cons, List.append_assoc, List.singleton_append,
            ← List.append_assoc, Text.infix_append_cons_iff noBreak] at occurs
          rcases occurs with inFirst | later
          · exact .inr ⟨call, List.mem_cons_self, inFirst⟩
          · have inRest : word <:+: [] ++ ['\n'].intercalate (next :: others) := later
            obtain nothing | ⟨other, isCall, inOther⟩ := inductionHypothesis inRest
            · exact .inl (nothing.trans (List.nil_infix))
            · exact .inr ⟨other, List.mem_cons_of_mem _ isCall,
                List.IsInfix.trans inOther (List.suffix_append front other).isInfix⟩

/-- A word stands across the beginning of a call: it begins in front of the call, and what is left
of it begins the callable. -/
def StandsAcross (word text : List Char) : Prop :=
  ∃ front back : List Char, front ≠ [] ∧ back ≠ [] ∧ word = front ++ back ∧
    front ++ Text.chars "@nonfinite " ++ back <:+: text

theorem StandsAcross.mono
    {part text : List Char}
    (across : StandsAcross word part)
    (inText : part <:+: text) :
    StandsAcross word text := by
  obtain ⟨front, back, startsBefore, endsBehind, parts, occurs⟩ := across
  exact ⟨front, back, startsBefore, endsBehind, parts, occurs.trans inText⟩

theorem IsSolid.infix_or_standsAcross_line
    (solid : IsSolid word)
    {line expanded : List Char}
    (noBreak : '\n' ∉ line)
    (expands : expand line = .ok expanded)
    (occurs : word <:+: expanded) :
    word <:+: line ∨ StandsAcross word line := by
  obtain rfl | ⟨front, callable, arguments, tail, calls, rfl, areCalls, rfl⟩ :=
    expand_line noBreak expands
  · exact .inl occurs
  have inFront : front <:+: front ++ (Directive.nonfinite callable arguments tail).source :=
    (List.prefix_append front _).isInfix
  have inCallable : callable <:+: front ++ (Directive.nonfinite callable arguments tail).source :=
    ⟨front ++ "@nonfinite ", "(" ++ arguments ++ ")" ++ tail, by simp [Directive.source]⟩
  have inArguments : arguments <:+: front ++ (Directive.nonfinite callable arguments tail).source :=
    ⟨front ++ "@nonfinite " ++ callable ++ "(", ")" ++ tail, by simp [Directive.source]⟩
  have inTail : tail <:+: front ++ (Directive.nonfinite callable arguments tail).source :=
    ⟨front ++ "@nonfinite " ++ callable ++ "(" ++ arguments ++ ")", [], by simp [Directive.source]⟩
  obtain beforeCall | ⟨call, isCall, inCall⟩ :=
    infix_or_exists_of_infix_append_intercalate solid.noBreak occurs
  · exact .inl (beforeCall.trans inFront)
  · obtain ⟨values, rfl, fromArguments⟩ := Boundary.exists_of_mem_expand? areCalls isCall
    obtain begins | ⟨value, isValue, inValue⟩ | later := solid.infix_callText inCall
    · obtain before | within | ⟨start, rest, startsBefore, endsBehind, parts, ends, starts⟩ :=
        List.infix_append_iff_ne_nil.1 begins
      · exact .inl (before.trans inFront)
      · exact .inl (within.trans inCallable)
      · obtain ⟨before, rfl⟩ := ends
        obtain ⟨after, rfl⟩ := starts
        exact .inr ⟨start, rest, startsBefore, endsBehind, parts, before,
          after ++ "(" ++ arguments ++ ")" ++ tail, by simp [Directive.source]⟩
    · exact .inl ((inValue.trans (fromArguments value isValue)).trans inArguments)
    · exact .inl (later.trans inTail)

/-- A solid word in an expansion stands in the body as it is, or across the beginning of a call. -/
theorem IsSolid.infix_or_standsAcross
    (solid : IsSolid word)
    {text expanded : List Char}
    (expands : expand text = .ok expanded)
    (occurs : word <:+: expanded) :
    word <:+: text ∨ StandsAcross word text := by
  by_cases several : '\n' ∈ text
  · obtain ⟨line, rest, rfl, noBreak⟩ := List.eq_append_cons_of_mem several
    have inLine : line <:+: line ++ '\n' :: rest := (List.prefix_append line _).isInfix
    have inRest : rest <:+: line ++ '\n' :: rest := ⟨line ++ ['\n'], [], by simp⟩
    rw [expand_append_break] at expands
    cases expandsLine : expand line with
    | error error => simp [expandsLine, bind, Except.bind] at expands
    | ok expandedLine =>
        cases expandsRest : expand rest with
        | error error => simp [expandsLine, expandsRest, bind, Except.bind] at expands
        | ok expandedRest =>
            simp only [expandsLine, expandsRest, bind, Except.bind, pure, Except.pure,
              Except.ok.injEq] at expands
            rw [← expands, Text.infix_append_cons_iff solid.noBreak] at occurs
            rcases occurs with first | later
            · exact (solid.infix_or_standsAcross_line noBreak expandsLine first).imp
                (·.trans inLine) (·.mono inLine)
            · exact (infix_or_standsAcross solid expandsRest later).imp
                (·.trans inRest) (·.mono inRest)
  · exact solid.infix_or_standsAcross_line several expands occurs
termination_by text.length

end Body
end Conformance
