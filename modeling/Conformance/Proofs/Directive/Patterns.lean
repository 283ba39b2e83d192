import Conformance.Proofs.Directive.Grammar

/-!
# Matching patterns

A pattern matches in the order of preference of its runs: the longest run with which the rest of the
pattern matches counts.  A run that stops in front of what the pattern goes on with takes all it
can.  An operand in front of a semicolon is a statement, which ends at the last semicolon of the
line, and a word between two operands stands where it occurs last in the statement.
-/

namespace Conformance
namespace Directive

open scoped Text

variable {Item Result : Type}

/-! ## Greedy runs -/

/-- What is found first among several lists is found in the first list that has something. -/
theorem findSome?_flatMap
    (items : List Item)
    (more : Item → List Item)
    (find? : Item → Option Result) :
    (items.flatMap more).findSome? find? =
      items.findSome? fun item => (more item).findSome? find? := by
  rw [← List.head?_filterMap, List.filterMap_flatMap, List.head?_flatMap]
  simp only [List.head?_filterMap]

variable
  {accept : Char → Bool}
  {first : Char}
  {text run rest : List Char}
  {find? : List Char × List Char → Option Result}

theorem runs_of_accepted (accepted : accept first = true) (text : List Char) :
    runs accept (first :: text) =
      (runs accept text).map (fun (run, rest) => (first :: run, rest)) ++ [([], first :: text)] :=
  if_pos accepted

theorem runs_of_refused (refused : ¬ accept first = true) (text : List Char) :
    runs accept (first :: text) = [([], first :: text)] :=
  if_neg refused

/-- A run is any part of accepted characters at the beginning. -/
theorem mem_runs_iff :
    (run, rest) ∈ runs accept text ↔
      text = run ++ rest ∧ ∀ character ∈ run, accept character = true := by
  induction text generalizing run with
  | nil =>
      rw [runs, List.mem_singleton, Prod.mk.injEq, List.nil_eq, List.append_eq_nil_iff]
      exact ⟨fun ⟨isNil, nothing⟩ => ⟨⟨isNil, nothing⟩, by simp [isNil]⟩, And.left⟩
  | cons first text inductionHypothesis =>
      have here : ([], rest) = (([], first :: text) : List Char × List Char) ↔
          first :: text = [] ++ rest := by
        simp [eq_comm]
      by_cases accepted : accept first = true
      · rw [runs_of_accepted accepted, List.mem_append, List.mem_singleton]
        cases run with
        | nil => simp [here]
        | cons character run =>
            simp only [List.mem_map, Prod.exists, Prod.mk.injEq, List.cons.injEq, reduceCtorEq,
              false_and, or_false, List.cons_append, List.forall_mem_cons]
            constructor
            · rintro ⟨inner, behind, member, ⟨rfl, rfl⟩, rfl⟩
              obtain ⟨rfl, allAccepted⟩ := inductionHypothesis.1 member
              exact ⟨⟨rfl, rfl⟩, accepted, allAccepted⟩
            · rintro ⟨⟨rfl, parts⟩, -, allAccepted⟩
              exact ⟨run, rest, inductionHypothesis.2 ⟨parts, allAccepted⟩, ⟨rfl, rfl⟩, rfl⟩
      · rw [runs_of_refused accepted, List.mem_singleton]
        cases run with
        | nil => simp [here]
        | cons character run =>
            refine iff_of_false (by simp) ?_
            rintro ⟨parts, allAccepted⟩
            obtain ⟨rfl, -⟩ := List.cons.inj parts
            exact accepted (allAccepted first List.mem_cons_self)

/-- Longer runs come first. -/
theorem pairwise_runs (accept : Char → Bool) (text : List Char) :
    (runs accept text).Pairwise fun earlier later => later.1.length < earlier.1.length := by
  induction text with
  | nil => simp [runs]
  | cons first text inductionHypothesis =>
      by_cases accepted : accept first = true
      · rw [runs_of_accepted accepted, List.pairwise_append, List.pairwise_map]
        refine ⟨inductionHypothesis.imp Nat.succ_lt_succ, List.pairwise_singleton _ _, ?_⟩
        intro earlier isEarlier later isLast
        obtain ⟨⟨run, rest⟩, -, rfl⟩ := List.mem_map.1 isEarlier
        rw [List.mem_singleton.1 isLast]
        exact Nat.succ_pos run.length
      · rw [runs_of_refused accepted]
        exact List.pairwise_singleton _ _

/-- Greed: of the runs with which something is found the longest one counts. -/
theorem findSome?_runs_eq_some_iff {result : Result} :
    (runs accept text).findSome? find? = some result ↔
      ∃ run rest, (run, rest) ∈ runs accept text ∧ find? (run, rest) = some result ∧
        ∀ longer behind, (longer, behind) ∈ runs accept text → run.length < longer.length →
          find? (longer, behind) = none := by
  have sorted := pairwise_runs accept text
  rw [List.findSome?_eq_some_iff]
  constructor
  · rintro ⟨earlier, ⟨run, rest⟩, later, runs_eq, found, notEarlier⟩
    rw [runs_eq] at sorted ⊢
    refine ⟨run, rest, by simp, found, fun longer behind member isLonger => ?_⟩
    obtain ⟨-, fromRun, -⟩ := List.pairwise_append.1 sorted
    rcases List.mem_append.1 member with isEarlier | notBefore
    · exact notEarlier _ isEarlier
    · rcases List.mem_cons.1 notBefore with same | isLater
      · obtain ⟨rfl, -⟩ := Prod.mk.inj same
        exact absurd isLonger (Nat.lt_irrefl _)
      · exact absurd isLonger (Nat.lt_asymm (List.rel_of_pairwise_cons fromRun isLater))
  · rintro ⟨run, rest, member, found, notLonger⟩
    obtain ⟨earlier, later, runs_eq⟩ := List.append_of_mem member
    refine ⟨earlier, (run, rest), later, runs_eq, found, ?_⟩
    rintro ⟨longer, behind⟩ isEarlier
    rw [runs_eq] at sorted
    obtain ⟨-, -, acrossAll⟩ := List.pairwise_append.1 sorted
    refine notLonger longer behind (by rw [runs_eq]; exact List.mem_append_left _ isEarlier) ?_
    exact acrossAll _ isEarlier _ List.mem_cons_self

/-- The longest run comes first, and in front of the rest of all others stands an accepted
character. -/
theorem exists_runs_eq_cons (accept : Char → Bool) (text : List Char) :
    ∃ shorter, runs accept text = (text.takeWhile accept, text.dropWhile accept) :: shorter ∧
      ∀ run rest, (run, rest) ∈ shorter →
        ∃ character behind, rest = character :: behind ∧ accept character = true := by
  induction text with
  | nil => exact ⟨[], rfl, by simp⟩
  | cons first text inductionHypothesis =>
      by_cases accepted : accept first = true
      · obtain ⟨shorter, runs_eq, goesOn⟩ := inductionHypothesis
        refine ⟨shorter.map (fun (run, rest) => (first :: run, rest)) ++ [([], first :: text)],
          ?_, fun run rest member => ?_⟩
        · rw [runs_of_accepted accepted, runs_eq]
          simp [accepted]
        · rcases List.mem_append.1 member with inside | isLast
          · obtain ⟨⟨inner, behind⟩, isShorter, same⟩ := List.mem_map.1 inside
            obtain ⟨-, rfl⟩ := Prod.mk.inj same
            exact goesOn inner behind isShorter
          · obtain ⟨-, rfl⟩ := Prod.mk.inj (List.mem_singleton.1 isLast)
            exact ⟨first, text, rfl, accepted⟩
      · exact ⟨[], by rw [runs_of_refused accepted]; simp [accepted], by simp⟩

/-- If nothing is found in front of an accepted character, only the longest run is of interest. -/
theorem findSome?_runs_of_stuck
    (stuck : ∀ run character rest, accept character = true →
      find? (run, character :: rest) = none) :
    (runs accept text).findSome? find? =
      find? (text.takeWhile accept, text.dropWhile accept) := by
  obtain ⟨shorter, runs_eq, goesOn⟩ := exists_runs_eq_cons accept text
  have noneShorter : shorter.findSome? find? = none := by
    rw [List.findSome?_eq_none_iff]
    rintro ⟨run, rest⟩ member
    obtain ⟨character, behind, rfl, accepted⟩ := goesOn run rest member
    exact stuck run character behind accepted
  rw [runs_eq, List.findSome?_cons, noneShorter]
  cases find? (text.takeWhile accept, text.dropWhile accept) <;> rfl

/-- If something is found behind every run, it is found behind the longest one. -/
theorem findSome?_runs_of_total (find : List Char × List Char → Result) :
    (runs accept text).findSome? (fun item => some (find item)) =
      some (find (text.takeWhile accept, text.dropWhile accept)) := by
  obtain ⟨shorter, runs_eq, -⟩ := exists_runs_eq_cons accept text
  rw [runs_eq, List.findSome?_cons]

/-! ## Atoms and groups -/

variable {atom : Atom} {atoms : List Atom} {parts : List Part} {groups : List (List Char)}

theorem findSome?_waysThrough_nil :
    (waysThrough [] text).findSome? find? = find? ([], text) := by
  simp [waysThrough]

/-- Atoms are taken one behind the other. -/
theorem findSome?_waysThrough_cons :
    (waysThrough (atom :: atoms) text).findSome? find? =
      (atom.ways text).findSome? fun (taken, rest) =>
        (waysThrough atoms rest).findSome? fun (further, behind) =>
          find? (taken ++ further, behind) := by
  rw [waysThrough, findSome?_flatMap]
  simp only [List.findSome?_map, Function.comp_def]

theorem findSome?_ways_chars (spelling : List Char) :
    ((Atom.chars spelling).ways text).findSome? find? =
      (Text.after? spelling text).bind fun rest => find? (spelling, rest) := by
  rw [Atom.ways]
  cases Text.after? spelling text <;> simp

theorem findSome?_ways_run (least : Nat) :
    ((Atom.run accept least).ways text).findSome? find? =
      (runs accept text).findSome? fun (taken, rest) =>
        if least ≤ taken.length then find? (taken, rest) else none := by
  rw [Atom.ways, ← List.head?_filterMap, List.filterMap_filter, List.head?_filterMap]
  simp

/-- What begins with no digit is not found in front of one. -/
theorem after?_digit_cons
    {first digit : Char}
    {characters : List Char}
    (notDigit : Text.isDecimalDigit first = false)
    (isDigit : Text.isDecimalDigit digit = true)
    (rest : List Char) :
    Text.after? (Text.chars (String.ofList (first :: characters))) (digit :: rest) = none := by
  rw [Text.chars_ofList]
  refine Text.after?_cons_of_ne ?_
  rintro rfl
  simp [notDigit] at isDigit

/-- A number takes all its digits if nothing is found in front of a further digit. -/
theorem findSome?_ways_digits
    (stuck : ∀ taken digit rest, Text.isDecimalDigit digit = true →
      find? (taken, digit :: rest) = none) :
    (digits.ways text).findSome? find? = (readDigits? text).bind find? := by
  rw [digits, findSome?_ways_run, findSome?_runs_of_stuck, readDigits?]
  · cases text.takeWhile Text.isDecimalDigit <;> simp
  · intro run digit rest isDigit
    simp [stuck run digit rest isDigit]

/-- Numbers take all their digits if nothing is found in front of a further digit. -/
theorem findSome?_waysThrough_numbers
    {commas : Nat}
    (stuck : ∀ taken digit rest, Text.isDecimalDigit digit = true →
      find? (taken, digit :: rest) = none) :
    (waysThrough (numbers commas) text).findSome? find? =
      (readNumbers? commas text).bind find? := by
  induction commas generalizing text find? with
  | zero =>
      rw [numbers, findSome?_waysThrough_cons]
      simp only [findSome?_waysThrough_nil, List.append_nil]
      exact findSome?_ways_digits stuck
  | succ commas inductionHypothesis =>
      rw [numbers, findSome?_waysThrough_cons, findSome?_ways_digits, readNumbers?]
      · simp only [findSome?_waysThrough_cons, findSome?_ways_chars, Option.bind_eq_bind,
          Option.bind_assoc, Option.pure_def]
        refine Option.bind_congr fun item _ => ?_
        refine Option.bind_congr fun later _ => ?_
        rw [inductionHypothesis fun taken => stuck (item.1 ++ ("," ++ taken))]
        simp
      · intro taken digit rest isDigit
        have noComma : Text.after? "," (digit :: rest) = none :=
          after?_digit_cons (by decide) isDigit rest
        simp only [findSome?_waysThrough_cons, findSome?_ways_chars, noComma, Option.bind_none]

theorem match?_chars (spelling : List Char) :
    match? (.chars spelling :: parts) text =
      (Text.after? spelling text).bind (match? parts) := by
  rw [match?]

theorem match?_ending (spelling : List Char) :
    match? [.chars spelling] text =
      (Text.after? spelling text).map fun rest => ([], rest) := by
  rw [match?_chars]
  cases Text.after? spelling text <;> simp [match?]

/-- A group of numbers reads them, if the pattern goes on with something else than a digit. -/
theorem match?_numbers
    {commas : Nat}
    (stuck : ∀ digit rest, Text.isDecimalDigit digit = true →
      match? parts (digit :: rest) = none) :
    match? (.group (numbers commas) :: parts) text =
      (readNumbers? commas text).bind fun (group, rest) =>
        (match? parts rest).map fun (groups, behind) => (group :: groups, behind) := by
  rw [match?, findSome?_waysThrough_numbers]
  intro taken digit rest isDigit
  simp [stuck digit rest isDigit]

theorem match?_digits
    (stuck : ∀ digit rest, Text.isDecimalDigit digit = true →
      match? parts (digit :: rest) = none) :
    match? (.group [digits] :: parts) text =
      (readDigits? text).bind fun (group, rest) =>
        (match? parts rest).map fun (groups, behind) => (group :: groups, behind) := by
  have group_eq : [digits] = numbers 0 := rfl
  rw [group_eq, match?_numbers stuck]
  rfl

/-- An explicit tolerance is a number between its sign and the semicolon. -/
theorem match?_tolerance :
    match? [.chars " +/- ", .group [digits], .chars ";"] text =
      (Text.after? " +/- " text).bind fun afterSign =>
        (readDigits? afterSign).bind fun amount =>
          (Text.after? ";" amount.2).map fun rest => ([amount.1], rest) := by
  rw [match?_chars]
  refine Option.bind_congr fun afterSign _ => ?_
  rw [match?_digits]
  · simp only [match?_ending, Option.map_map, Function.comp_def]
  · intro digit rest isDigit
    rw [match?_ending, after?_digit_cons (by decide) isDigit rest, Option.map_none]

/-- An operand at the end reaches as far as the line. -/
theorem match?_tail :
    match? [.group [anything]] text =
      some ([Text.firstLine text], Text.afterFirstLine text) := by
  rw [match?, findSome?_waysThrough_cons, anything, findSome?_ways_run]
  simp only [Nat.zero_le, if_true, findSome?_waysThrough_nil, List.append_nil, match?,
    Option.map_some]
  exact findSome?_runs_of_total fun (taken, rest) => ([taken], rest)

/-- A run in front of a character that it does not accept takes all that it accepts. -/
theorem match?_run
    {least : Nat}
    (stuck : ∀ character rest, accept character = true → match? parts (character :: rest) = none) :
    match? (.group [.run accept least] :: parts) text =
      if least ≤ (text.takeWhile accept).length then
        (match? parts (text.dropWhile accept)).map fun (groups, rest) =>
          (text.takeWhile accept :: groups, rest)
      else none := by
  rw [match?, findSome?_waysThrough_cons, findSome?_ways_run]
  simp only [findSome?_waysThrough_nil, List.append_nil]
  rw [findSome?_runs_of_stuck]
  intro run character rest accepted
  simp [stuck character rest accepted]

/-- The first operand on the line reaches as far as the rest of the pattern allows. -/
theorem match?_anything_eq_some_iff :
    match? (.group [anything] :: parts) text = some (groups, rest) ↔
      ∃ operand others behind, groups = operand :: others ∧
        text = operand ++ behind ∧ '\n' ∉ operand ∧ match? parts behind = some (others, rest) ∧
        ∀ longer after, text = longer ++ after → '\n' ∉ longer →
          operand.length < longer.length → match? parts after = none := by
  have inLine (operand : List Char) :
      (∀ character ∈ operand, (character != '\n') = true) ↔ '\n' ∉ operand :=
    ⟨fun accepted member => by simpa using accepted _ member, Text.bne_break_of_not_mem⟩
  rw [match?, findSome?_waysThrough_cons, anything, findSome?_ways_run]
  simp only [Nat.zero_le, if_true, findSome?_waysThrough_nil, List.append_nil,
    findSome?_runs_eq_some_iff, mem_runs_iff, inLine, Option.map_eq_some_iff,
    Option.map_eq_none_iff, Prod.exists, Prod.mk.injEq]
  constructor
  · rintro ⟨operand, behind, ⟨parts_eq, oneLine⟩, ⟨others, after, found, rfl, rfl⟩, greedy⟩
    exact ⟨operand, others, behind, rfl, parts_eq, oneLine, found, fun longer after same noBreak =>
      greedy longer after ⟨same, noBreak⟩⟩
  · rintro ⟨operand, others, behind, rfl, parts_eq, oneLine, found, greedy⟩
    exact ⟨operand, behind, ⟨parts_eq, oneLine⟩, ⟨others, rest, found, rfl, rfl⟩,
      fun longer after ⟨same, noBreak⟩ => greedy longer after same noBreak⟩

/-! ## Statements -/

variable {statement : List Char}

/-- A statement ends at the last semicolon of the line. -/
theorem readStatement?_eq_some_iff :
    readStatement? text = some (statement, rest) ↔
      text = statement ++ ";" ++ rest ∧ '\n' ∉ statement ∧ ';' ∉ Text.firstLine rest := by
  have semicolon : Text.chars ";" = [';'] := by simp [Text.chars_eq_toList]
  constructor
  · intro found
    refine ⟨eq_of_readStatement?_eq_some found, ?_⟩
    simp only [readStatement?, Option.map_eq_some_iff, Prod.exists, Prod.mk.injEq] at found
    obtain ⟨statement, more, split, rfl, rfl⟩ := found
    have isLast := Text.splitLast?_eq_some_iff.1 split
    have oneLine := Text.break_not_mem_firstLine text
    rw [isLast.parts, List.mem_append, List.mem_append, not_or, not_or] at oneLine
    rw [semicolon] at isLast
    refine ⟨oneLine.1.1, ?_⟩
    rw [Text.firstLine_append oneLine.2, Text.firstLine_afterFirstLine, List.append_nil]
    exact isLast.not_mem
  · rintro ⟨rfl, oneLine, noSemicolon⟩
    have noBreak : '\n' ∉ statement ++ ";" := by simp [oneLine, semicolon]
    have found := readStatement?_of_firstLine_eq (Text.firstLine_append noBreak rest) noSemicolon
    rw [Text.afterFirstLine_append noBreak, Text.firstLine_append_afterFirstLine] at found
    exact found

/-- What stands in front on the line belongs to the statement. -/
theorem readStatement?_append
    {front : List Char}
    (noBreak : '\n' ∉ front)
    (found : readStatement? text = some (statement, rest)) :
    readStatement? (front ++ text) = some (front ++ statement, rest) := by
  obtain ⟨rfl, oneLine, noSemicolon⟩ := readStatement?_eq_some_iff.1 found
  refine readStatement?_eq_some_iff.2 ⟨by simp only [List.append_assoc], ?_, noSemicolon⟩
  rw [List.mem_append, not_or]
  exact ⟨noBreak, oneLine⟩

/-- A statement begins with a part of the line exactly if it goes on behind it. -/
theorem exists_readStatement?_iff {front : List Char} (noBreak : '\n' ∉ front) :
    (∃ later, text = front ++ later ∧ readStatement? later = some (statement, rest)) ↔
      readStatement? text = some (front ++ statement, rest) := by
  constructor
  · rintro ⟨later, rfl, found⟩
    exact readStatement?_append noBreak found
  · intro found
    obtain ⟨rfl, inLine, noSemicolon⟩ := readStatement?_eq_some_iff.1 found
    rw [List.mem_append, not_or] at inLine
    exact ⟨statement ++ ";" ++ rest, by simp only [List.append_assoc],
      readStatement?_eq_some_iff.2 ⟨rfl, inLine.2, noSemicolon⟩⟩

/-- An operand in front of a semicolon is the whole statement. -/
theorem match?_statement :
    match? [.group [anything], .chars ";"] text =
      (readStatement? text).map fun (statement, rest) => ([statement], rest) := by
  have semicolon : Text.chars ";" = [';'] := by simp [Text.chars_eq_toList]
  refine Option.ext ?_
  rintro ⟨groups, rest⟩
  rw [match?_anything_eq_some_iff]
  simp only [match?_ending, Option.map_eq_some_iff, Option.map_eq_none_iff, Text.after?_eq_some_iff,
    Text.after?_eq_none_iff, Prod.mk.injEq, Prod.exists, readStatement?_eq_some_iff]
  constructor
  · rintro ⟨operand, -, -, rfl, rfl, oneLine, ⟨rest, rfl, rfl, rfl⟩, greedy⟩
    refine ⟨operand, _, ⟨by simp only [List.append_assoc], oneLine, fun member => ?_⟩, rfl, rfl⟩
    obtain ⟨between, more, line⟩ := List.append_of_mem member
    have noBreak := Text.break_not_mem_firstLine rest
    rw [line, List.mem_append, not_or] at noBreak
    -- with the later semicolon the operand could have been longer
    refine greedy (operand ++ (";" ++ between)) (';' :: (more ++ Text.afterFirstLine rest))
      ?_ ?_ ?_ ?_
    · conv => lhs; rw [← Text.firstLine_append_afterFirstLine rest, line]
      simp
    · simp [oneLine, noBreak.1, semicolon]
    · simp [semicolon]
    · simp [semicolon]
  · rintro ⟨statement, rest, ⟨rfl, oneLine, noSemicolon⟩, rfl, rfl⟩
    refine ⟨statement, [], ";" ++ rest, rfl, by simp only [List.append_assoc], oneLine,
      ⟨rest, rfl, rfl, rfl⟩, ?_⟩
    rintro longer _ same noBreak isLonger ⟨behind, rfl⟩
    rw [List.append_assoc] at same
    rcases List.append_eq_append_iff.1 same with ⟨between, rfl, rest_eq⟩ | ⟨between, rfl, -⟩
    · cases between with
      | nil => simp at isLonger
      | cons first between =>
          rw [List.mem_append, List.mem_cons, not_or, not_or] at noBreak
          rw [semicolon, List.cons_append, List.cons_append, List.cons.injEq] at rest_eq
          obtain ⟨-, rfl⟩ := rest_eq
          rw [Text.firstLine_append noBreak.2.2,
            Text.firstLine_append (by simp)] at noSemicolon
          simp at noSemicolon
    · rw [List.length_append] at isLonger
      omega

/-- Two operands around a word divide the statement where the word occurs last. -/
theorem match?_comparison {word : List Char} (oneLine : '\n' ∉ word) :
    match? [.group [anything], .chars word, .group [anything], .chars ";"] text =
      (readStatement? text).bind fun (statement, rest) =>
        (Text.splitLast? word statement).map fun (left, right) => ([left, right], rest) := by
  have reached (behind : List Char) :
      match? [.chars word, .group [anything], .chars ";"] behind =
        (Text.after? word behind).bind fun later =>
          (readStatement? later).map fun (right, rest) => ([right], rest) := by
    rw [match?_chars]
    exact Option.bind_congr fun later _ => match?_statement
  refine Option.ext ?_
  rintro ⟨groups, rest⟩
  rw [match?_anything_eq_some_iff]
  simp only [reached, Option.map_eq_some_iff, Option.bind_eq_some_iff, Option.bind_eq_none_iff,
    Option.map_eq_none_iff, Text.after?_eq_some_iff, Text.splitLast?_eq_some_iff, Prod.mk.injEq,
    Prod.exists]
  constructor
  · rintro ⟨left, -, -, rfl, rfl, noBreak, ⟨later, rfl, right, rest, isRight, rfl, rfl⟩, greedy⟩
    have noBreakInFront : '\n' ∉ left ++ word := by simp [noBreak, oneLine]
    have isStatement := readStatement?_append noBreakInFront isRight
    rw [List.append_assoc left word later] at isStatement
    obtain ⟨text_eq, inLine, noSemicolon⟩ := readStatement?_eq_some_iff.1 isStatement
    refine ⟨left ++ word ++ right, rest, isStatement, left, right, ⟨rfl, ?_⟩, rfl, rfl⟩
    refine fun {front back} statement_eq => Nat.le_of_not_lt fun isLonger => ?_
    rw [statement_eq, List.mem_append, List.mem_append, not_or, not_or] at inLine
    have isBack : readStatement? (back ++ ";" ++ rest) = some (back, rest) :=
      readStatement?_eq_some_iff.2 ⟨rfl, inLine.2, noSemicolon⟩
    have notBack := greedy front (word ++ (back ++ ";" ++ rest))
      (by rw [text_eq, statement_eq]; simp only [List.append_assoc]) inLine.1.1 isLonger _ rfl
    exact nomatch isBack.symm.trans notBack
  · rintro ⟨statement, rest, isStatement, left, right, isLast, rfl, rfl⟩
    obtain ⟨rfl, inLine, noSemicolon⟩ := readStatement?_eq_some_iff.1 isStatement
    obtain ⟨rfl, last⟩ := isLast
    rw [List.mem_append, List.mem_append, not_or, not_or] at inLine
    have isRight : readStatement? (right ++ ";" ++ rest) = some (right, rest) :=
      readStatement?_eq_some_iff.2 ⟨rfl, inLine.2, noSemicolon⟩
    refine ⟨left, [right], word ++ (right ++ ";" ++ rest), rfl, by simp only [List.append_assoc],
      inLine.1.1, ⟨_, rfl, right, rest, isRight, rfl, rfl⟩, ?_⟩
    rintro longer _ same noBreak isLonger behind rfl
    refine Option.eq_none_iff_forall_ne_some.2 ?_
    rintro ⟨other, after⟩ found
    -- behind a longer operand the word would occur later in the same statement
    have noBreakInFront : '\n' ∉ longer ++ word := by simp [noBreak, oneLine]
    have isOther := readStatement?_append noBreakInFront found
    rw [List.append_assoc, ← same, isStatement] at isOther
    obtain ⟨statement_eq, -⟩ := Prod.mk.inj (Option.some.inj isOther)
    exact absurd (last statement_eq) (Nat.not_le_of_lt isLonger)

/-- The name of an exception code is an error word. -/
theorem mem_waysThrough_errorName_iff {word : List Char} :
    (word, rest) ∈ waysThrough errorName text ↔ text = word ++ rest ∧ IsErrorWord word := by
  simp only [errorName, waysThrough, Atom.ways, List.mem_flatMap, List.mem_map, List.mem_filter,
    mem_runs_iff, Option.mem_toList, Option.map_eq_some_iff, Text.after?_eq_some_iff,
    Bool.not_eq_eq_eq_not, Bool.not_true, decide_eq_true_eq, List.mem_singleton, Prod.exists,
    Prod.mk.injEq]
  constructor
  · rintro ⟨front, _, ⟨⟨rfl, noBlank⟩, nonempty⟩, _, _,
      ⟨_, _, ⟨rest, rfl, rfl, rfl⟩, _, _, ⟨rfl, rfl⟩, rfl, rfl⟩, rfl, rfl⟩
    refine ⟨by simp, ?_, front, List.length_pos_iff.1 nonempty, by simp⟩
    have noBlankInSuffix : ∀ character ∈ Text.chars "_ERR", Text.isBlank character = false := by
      have allApart : "_ERR".toList.all (fun character => !Text.isBlank character) = true := by
        decide +kernel
      simpa [Text.chars_eq_toList] using allApart
    rw [List.append_nil, List.forall_mem_append]
    exact ⟨noBlank, noBlankInSuffix⟩
  · rintro ⟨rfl, noBlank, front, nonempty, rfl⟩
    rw [List.forall_mem_append] at noBlank
    exact ⟨front, _, ⟨⟨List.append_assoc _ _ _, noBlank.1⟩, List.length_pos_iff.2 nonempty⟩,
      _, rest, ⟨_, _, ⟨rest, rfl, rfl, rfl⟩, [], rest, ⟨rfl, rfl⟩, rfl, rfl⟩, by simp, rfl⟩

/-- A named code is followed by a space and a statement. -/
theorem match?_errorName_eq_some_iff :
    match? [.group errorName, .chars " ", .group [anything], .chars ";"] text =
        some (groups, rest) ↔
      ∃ word statement later, groups = [word, statement] ∧ IsErrorWord word ∧
        text = word ++ " " ++ later ∧ readStatement? later = some (statement, rest) := by
  have reached (behind : List Char) :
      match? [.chars " ", .group [anything], .chars ";"] behind =
        (Text.after? " " behind).bind fun later =>
          (readStatement? later).map fun (statement, rest) => ([statement], rest) := by
    rw [match?_chars]
    exact Option.bind_congr fun later _ => match?_statement
  have necessary {groups rest} (found : match?
      [.group errorName, .chars " ", .group [anything], .chars ";"] text = some (groups, rest)) :
      ∃ word statement later, groups = [word, statement] ∧ IsErrorWord word ∧
        text = word ++ " " ++ later ∧ readStatement? later = some (statement, rest) := by
    rw [match?] at found
    obtain ⟨⟨word, behind⟩, isWay, isMatch⟩ := List.exists_of_findSome?_eq_some found
    obtain ⟨parts, isErrorWord⟩ := mem_waysThrough_errorName_iff.1 isWay
    simp only [reached, Option.map_eq_some_iff, Option.bind_eq_some_iff, Text.after?_eq_some_iff,
      Prod.mk.injEq, Prod.exists] at isMatch
    obtain ⟨_, _, ⟨later, rfl, statement, rest, isStatement, rfl, rfl⟩, rfl, rfl⟩ := isMatch
    exact ⟨word, statement, later, rfl, isErrorWord, by rw [parts, List.append_assoc], isStatement⟩
  refine ⟨necessary, ?_⟩
  rintro ⟨word, statement, later, rfl, isErrorWord, text_eq, isStatement⟩
  have isSome : (match? [.group errorName, .chars " ", .group [anything], .chars ";"]
      text).isSome := by
    rw [match?, List.findSome?_isSome_iff]
    refine ⟨(word, " " ++ later), mem_waysThrough_errorName_iff.2 ⟨?_, isErrorWord⟩, ?_⟩
    · rw [text_eq, List.append_assoc]
    · simp [reached, Text.after?_append_self, isStatement]
  -- a word ends where the first blank follows, so no other match is found before this one
  obtain ⟨⟨groups, behind⟩, found⟩ := Option.isSome_iff_exists.1 isSome
  obtain ⟨other, body, after, rfl, isOther, other_eq, isBody⟩ := necessary found
  obtain rfl : word = other := by
    rw [← takeWhile_word_append isErrorWord.noBlank later, ← text_eq, other_eq,
      takeWhile_word_append isOther.noBlank]
  obtain rfl := List.append_cancel_left (text_eq.symm.trans other_eq)
  rw [isStatement, Option.some.injEq, Prod.mk.injEq] at isBody
  rw [found, isBody.1, isBody.2]

end Directive
end Conformance
