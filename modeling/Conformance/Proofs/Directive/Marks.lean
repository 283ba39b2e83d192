import Conformance.Directive
import Conformance.Proofs.Message.Subscripts

/-!
# Marks in text that is put together

A directive mark, `@`, and the mark of a statement that is known to fail, `@moz-todo`, in text that
is written into a message, and in code whose portions are literal or operands.  Literal code holds
no mark and keeps the operands apart, so a mark that occurs in code occurs in an operand.
-/

namespace Conformance

open scoped Text

/-- The mark of a statement that is known to fail occurs in the text. -/
def HoldsTodo (text : List Char) : Prop :=
  Directive.todo.source <:+: text

namespace HoldsTodo

variable {character : Char} {front text : List Char}

theorem source_todo : Directive.todo.source = '@' :: ['m', 'o', 'z', '-', 't', 'o', 'd', 'o'] := by
  simp [Directive.source, Text.chars_eq_toList]

theorem mono (holds : HoldsTodo text) {longer : List Char} (inside : text <:+: longer) :
    HoldsTodo longer :=
  List.IsInfix.trans holds inside

theorem cons (character : Char) (holds : HoldsTodo text) : HoldsTodo (character :: text) :=
  holds.mono (List.suffix_cons _ _).isInfix

theorem mem (holds : HoldsTodo text) : '@' ∈ text :=
  holds.subset (by simp [source_todo])

@[simp]
theorem nil_iff : HoldsTodo [] ↔ False := by
  simp [HoldsTodo, source_todo]

theorem cons_iff (different : character ≠ '@') :
    HoldsTodo (character :: text) ↔ HoldsTodo text := by
  rw [HoldsTodo, HoldsTodo, source_todo]
  exact Text.infix_cons_iff_of_ne different

/-- A character that the mark does not hold divides the text. -/
theorem append_cons_iff (absent : character ∉ Directive.todo.source) :
    HoldsTodo (front ++ character :: text) ↔ HoldsTodo front ∨ HoldsTodo text :=
  Text.infix_append_cons_iff absent

theorem append_iff (absent : '@' ∉ front) : HoldsTodo (front ++ text) ↔ HoldsTodo text := by
  rw [HoldsTodo, HoldsTodo, source_todo]
  exact Text.infix_append_iff_of_not_mem absent

end HoldsTodo

/-! ## Messages -/

namespace Message

/-- The word of a subscript holds no mark. -/
theorem not_mem_of_subscript?_eq_some
    {text word rest : List Char}
    (found : subscript? text = some (word, rest)) :
    '@' ∉ word := by
  intro member
  exact absurd ((subscript?_eq_some_iff.1 found).2.2 _ member) (by decide)

theorem mem_escaped_plain_iff
    {ordinary : Char}
    (notBackslash : ordinary ≠ '\\')
    (character : Char) :
    ordinary ∈ (Part.plain character).escaped ↔ ordinary = character := by
  by_cases isBackslash : character = '\\'
  · simp [isBackslash, Part.escaped]
  · by_cases isQuote : character = '"'
    · simp [isQuote, Part.escaped, notBackslash]
    · rw [escaped_plain isBackslash isQuote, List.mem_singleton]

/-- A message holds a character that is not written around a subscript if the text does. -/
theorem mem_escape_iff_of_ordinary
    {ordinary : Char}
    (noMeaning : ordinary ∉ ['\\', '"', '[', ']', '+', '(', ')'])
    (text : List Char) :
    ordinary ∈ escape text ↔ ordinary ∈ text := by
  simp only [List.mem_cons, List.not_mem_nil, or_false, not_or] at noMeaning
  induction text using parts.induct with
  | case1 => rw [escape_nil]
  | case2 character text word rest found inductionHypothesis =>
      rw [escape_of_subscript?_eq_some found, eq_of_subscript?_eq_some found]
      simp [Part.escaped, Text.chars_eq_toList, noMeaning, inductionHypothesis]
  | case3 character text absent inductionHypothesis =>
      rw [escape_of_subscript?_eq_none absent, List.mem_append,
        mem_escaped_plain_iff noMeaning.1, inductionHypothesis, List.mem_cons]

/-- A message holds a mark if the text does. -/
theorem mem_escape_iff (text : List Char) : '@' ∈ escape text ↔ '@' ∈ text :=
  mem_escape_iff_of_ordinary (by decide) text

/-- Characters without a meaning in a literal stand at the beginning of a message only if the text
begins with them. -/
theorem prefix_of_prefix_escape
    {word text : List Char}
    (noMeaning : ∀ character ∈ word, character ∉ ['\\', '"', '['])
    (begins : word <+: escape text) :
    word <+: text := by
  induction word generalizing text with
  | nil => exact List.nil_prefix
  | cons first word inductionHypothesis =>
      rw [List.forall_mem_cons] at noMeaning
      obtain ⟨noMeaning, others⟩ := noMeaning
      simp only [List.mem_cons, List.not_mem_nil, or_false, not_or] at noMeaning
      match text with
      | [] => simp [escape_nil] at begins
      | character :: text =>
          cases found : subscript? (character :: text) with
          | some item =>
              rw [escape_of_subscript?_eq_some found] at begins
              simp [Part.escaped, Text.chars_eq_toList, noMeaning] at begins
          | none =>
              rw [escape_of_subscript?_eq_none found] at begins
              by_cases isBackslash : character = '\\'
              · simp [isBackslash, Part.escaped, noMeaning] at begins
              · by_cases isQuote : character = '"'
                · simp [isQuote, Part.escaped, noMeaning] at begins
                · rw [escaped_plain isBackslash isQuote, List.singleton_append,
                    List.cons_prefix_cons] at begins
                  exact List.cons_prefix_cons.2 ⟨begins.1, inductionHypothesis others begins.2⟩

/-- A message holds the mark of a statement that is known to fail only if the text does. -/
theorem holdsTodo_of_escape {text : List Char} (holds : HoldsTodo (escape text)) :
    HoldsTodo text := by
  induction text using parts.induct with
  | case1 => simp [escape_nil] at holds
  | case2 character text word rest found inductionHypothesis =>
      have absent := not_mem_of_subscript?_eq_some found
      rw [escape_of_subscript?_eq_some found, HoldsTodo.append_iff] at holds
      · have inside : rest <:+: character :: text := by
          rw [eq_of_subscript?_eq_some found]
          exact ((List.suffix_cons ']' rest).trans (List.suffix_append _ _)).isInfix
        exact (inductionHypothesis holds).mono inside
      · simp [Part.escaped, Text.chars_eq_toList, absent]
  | case3 character text absent inductionHypothesis =>
      rw [escape_of_subscript?_eq_none absent] at holds
      by_cases isMark : character = '@'
      · subst isMark
        rw [escaped_plain (by decide) (by decide), List.singleton_append, HoldsTodo,
          List.infix_cons_iff] at holds
        rcases holds with begins | later
        · rw [HoldsTodo.source_todo, List.cons_prefix_cons] at begins
          have inText := prefix_of_prefix_escape (by simp) begins.2
          rw [HoldsTodo, HoldsTodo.source_todo]
          exact (List.cons_prefix_cons.2 ⟨rfl, inText⟩).isInfix
        · exact HoldsTodo.cons _ (inductionHypothesis later)
      · have unmarked : '@' ∉ (Part.plain character).escaped := by
          rw [mem_escaped_plain_iff (by decide)]
          exact Ne.symm isMark
        rw [HoldsTodo.append_iff unmarked] at holds
        exact (HoldsTodo.cons_iff isMark).2 (inductionHypothesis holds)

end Message

/-! ## Code that is put together -/

/-- What a portion of code is. -/
inductive Role where
  /-- Code that stands there for every directive of the kind. -/
  | literal
  /-- Text that depends on the directive. -/
  | operand

/-- A portion of code. -/
structure Portion where
  /-- What the portion is. -/
  role : Role
  /-- Its code. -/
  text : List Char

namespace Portion

/-- The code of portions, one behind the other. -/
def code : List Portion → List Char
  | [] => []
  | portion :: portions =>
      portions.foldl (fun written later => written ++ later.text) portion.text

/-- The texts that depend on the directive. -/
def operands : List Portion → List (List Char)
  | [] => []
  | ⟨.literal, _⟩ :: portions => operands portions
  | ⟨.operand, text⟩ :: portions => text :: operands portions

theorem code_eq_flatMap (portions : List Portion) : code portions = portions.flatMap text := by
  have written : ∀ (others : List Portion) (front : List Char),
      others.foldl (fun written later => written ++ later.text) front =
        front ++ others.flatMap text := by
    intro others
    induction others with
    | nil => simp
    | cons portion others inductionHypothesis =>
        intro front
        rw [List.foldl_cons, inductionHypothesis, List.flatMap_cons, List.append_assoc]
  cases portions with
  | nil => rfl
  | cons portion portions => rw [code, written, List.flatMap_cons]

/-- Whether literal code keeps what stands in front of it apart from what follows: it holds no
mark, and the mark of a failing statement does not go on into it. -/
def separates : List Char → Bool
  | [] => false
  | character :: others =>
      !(['@', 'm', 'o', 'z', '-', 't', 'o', 'd', 'o'].contains character) && !(others.contains '@')

/-- No literal portion holds a mark, and literal code keeps every operand apart from what follows.
The mark of a failing statement stands in an operand only if it stands in the source. -/
inductive Apart (source : List Char) : List Portion → Prop where
  /-- There are no portions. -/
  | nil : Apart source []
  /-- Literal code comes first. -/
  | literal
      {text : List Char}
      {portions : List Portion}
      (absent : '@' ∉ text)
      (rest : Apart source portions) :
      Apart source (⟨.literal, text⟩ :: portions)
  /-- An operand comes first, and literal code behind it. -/
  | operand
      {text behind : List Char}
      {portions : List Portion}
      (fromSource : HoldsTodo text → HoldsTodo source)
      (separate : separates behind = true)
      (rest : Apart source portions) :
      Apart source (⟨.operand, text⟩ :: ⟨.literal, behind⟩ :: portions)

theorem not_mem_chars {characters : List Char} (absent : characters.contains '@' = false) :
    '@' ∉ Text.chars (String.ofList characters) := by
  rw [Text.chars_ofList]
  simpa using absent

theorem separates_chars {characters : List Char} (separate : separates characters = true) :
    separates (Text.chars (String.ofList characters)) = true := by
  rwa [Text.chars_ofList]

theorem exists_cons_of_separates {literal : List Char} (separate : separates literal = true) :
    ∃ character others, literal = character :: others ∧ character ∉ Directive.todo.source ∧
      '@' ∉ others := by
  cases literal with
  | nil => exact absurd separate (by decide)
  | cons character others =>
      simp only [separates, Bool.and_eq_true, Bool.not_eq_true', List.contains_eq_mem,
        decide_eq_false_iff_not] at separate
      exact ⟨character, others, rfl, HoldsTodo.source_todo ▸ separate.1, separate.2⟩

theorem not_mem_of_separates {literal : List Char} (separate : separates literal = true) :
    '@' ∉ literal := by
  obtain ⟨character, others, rfl, ends, absent⟩ := exists_cons_of_separates separate
  rw [List.mem_cons, not_or]
  exact ⟨fun same => ends (by simp [HoldsTodo.source_todo, ← same]), absent⟩

/-- Literal code keeps the text around it apart. -/
theorem holdsTodo_append_iff_of_separates
    {literal : List Char}
    (separate : separates literal = true)
    (front behind : List Char) :
    HoldsTodo (front ++ (literal ++ behind)) ↔ HoldsTodo front ∨ HoldsTodo behind := by
  obtain ⟨character, others, rfl, ends, absent⟩ := exists_cons_of_separates separate
  rw [List.cons_append, HoldsTodo.append_cons_iff ends, HoldsTodo.append_iff absent]

variable {source : List Char} {portions : List Portion}

namespace Apart

variable {text characters : List Char}

theorem fixed (absent : characters.contains '@' = false) (rest : Apart source portions) :
    Apart source (⟨.literal, Text.chars (String.ofList characters)⟩ :: portions) :=
  .literal (not_mem_chars absent) rest

/-- An operand stands as it is written in the source. -/
theorem written
    (inside : text <:+: source)
    (separate : separates characters = true)
    (rest : Apart source portions) :
    Apart source
      (⟨.operand, text⟩ :: ⟨.literal, Text.chars (String.ofList characters)⟩ :: portions) :=
  .operand (fun holds => holds.mono inside) (separates_chars separate) rest

/-- An operand stands in a message. -/
theorem escaped
    (inside : text <:+: source)
    (separate : separates characters = true)
    (rest : Apart source portions) :
    Apart source
      (⟨.operand, Message.escape text⟩ :: ⟨.literal, Text.chars (String.ofList characters)⟩ ::
        portions) :=
  .operand (fun holds => (Message.holdsTodo_of_escape holds).mono inside)
    (separates_chars separate) rest

end Apart

/-- Code holds a mark exactly if an operand does. -/
theorem mem_code_iff (apart : Apart source portions) :
    '@' ∈ code portions ↔ ∃ operand ∈ operands portions, '@' ∈ operand := by
  rw [code_eq_flatMap]
  induction apart with
  | nil => simp [operands]
  | literal absent rest inductionHypothesis => simp [operands, absent, inductionHypothesis]
  | operand fromSource separate rest inductionHypothesis =>
      simp [operands, not_mem_of_separates separate, inductionHypothesis]

/-- The mark of a failing statement comes from the source or stands behind the code. -/
theorem holdsTodo_of_code_append
    (apart : Apart source portions)
    {behind : List Char}
    (holds : HoldsTodo (code portions ++ behind)) :
    HoldsTodo source ∨ HoldsTodo behind := by
  rw [code_eq_flatMap] at holds
  induction apart with
  | nil => exact .inr holds
  | literal absent rest inductionHypothesis =>
      rw [List.flatMap_cons, List.append_assoc, HoldsTodo.append_iff absent] at holds
      exact inductionHypothesis holds
  | operand fromSource separate rest inductionHypothesis =>
      rw [List.flatMap_cons, List.flatMap_cons, List.append_assoc, List.append_assoc,
        holdsTodo_append_iff_of_separates separate] at holds
      exact holds.elim (fun inOperand => .inl (fromSource inOperand)) inductionHypothesis

theorem holdsTodo_of_code
    (apart : Apart source portions)
    (holds : HoldsTodo (code portions)) :
    HoldsTodo source := by
  rw [← List.append_nil (code portions)] at holds
  simpa using holdsTodo_of_code_append apart holds

end Portion

end Conformance
