import Conformance.Body
import Conformance.Proofs.Text.Lines

/-!
# Directives stay on their line

A directive ends on the line on which it begins.  What is read in front of a line break does not
depend on what stands behind the break, so the pieces of a body are the pieces of its lines.
-/

namespace Conformance
namespace Directive

open scoped Text

variable {Item Other : Type}

/-- A reader stays on its line: it reads the same whatever stands behind a line break, and leaves
the break and what is behind it. -/
def StaysOnLine (read : List Char → Option (Item × List Char)) : Prop :=
  ∀ front back, read (front ++ '\n' :: back) =
    (read front).map fun (item, rest) => (item, rest ++ '\n' :: back)

namespace StaysOnLine

variable {needle : List Char} {read : List Char → Option (Item × List Char)}

theorem pure (item : Item) : StaysOnLine fun text => some (item, text) :=
  fun _ _ => rfl

theorem bind
    {next : Item → List Char → Option (Other × List Char)}
    (first : StaysOnLine read)
    (others : ∀ item, StaysOnLine (next item)) :
    StaysOnLine fun text => (read text).bind fun (item, rest) => next item rest := by
  intro front back
  simp only [first front back]
  cases read front with
  | none => rfl
  | some found => exact others found.1 found.2 back

/-- A text without a line break is expected in front. -/
theorem after (noBreak : '\n' ∉ needle) (others : StaysOnLine read) :
    StaysOnLine fun text => (Text.after? needle text).bind read := by
  intro front back
  simp only [Text.after?_append_cons noBreak]
  cases Text.after? needle front with
  | none => rfl
  | some rest => exact others rest back

/-- What is read depends on whether a text without a line break stands in front. -/
theorem afterOr
    {other : List Char → Option (Item × List Char)}
    (noBreak : '\n' ∉ needle)
    (behind : StaysOnLine read)
    (otherwise : StaysOnLine other) :
    StaysOnLine fun text =>
      match Text.after? needle text with
      | some rest => read rest
      | none => other text := by
  intro front back
  simp only [Text.after?_append_cons noBreak]
  cases Text.after? needle front with
  | none => exact otherwise front back
  | some rest => exact behind rest back

end StaysOnLine

/-! ## The readers -/

theorem staysOnLine_run (accept : Char → Bool) (refused : accept '\n' = false) :
    StaysOnLine fun text =>
      some (text.takeWhile accept, text.drop (text.takeWhile accept).length) := by
  intro front back
  have shorter := (List.takeWhile_prefix accept (l := front)).length_le
  simp only [Text.takeWhile_append_break refused, List.drop_append_of_le_length shorter,
    Option.map_some]

theorem staysOnLine_readDigits? : StaysOnLine readDigits? := by
  have refused : Text.isDecimalDigit '\n' = false := by decide
  intro front back
  simp only [readDigits?, Text.takeWhile_append_break refused, Text.dropWhile_append_break refused]
  split <;> rfl

theorem staysOnLine_readNumbers? (commas : Nat) : StaysOnLine (readNumbers? commas) := by
  have comma : '\n' ∉ Text.chars "," := by simp [Text.chars_eq_toList]
  induction commas with
  | zero => exact staysOnLine_readDigits?
  | succ commas inductionHypothesis =>
      exact staysOnLine_readDigits?.bind fun digits =>
        .after comma (inductionHypothesis.bind fun numbers => .pure (digits ++ "," ++ numbers))

/-- The last occurrence on the line is looked for. -/
theorem staysOnLine_splitLast? (needle : List Char) :
    StaysOnLine fun text =>
      (Text.splitLast? needle (Text.firstLine text)).map fun (before, rest) =>
        (before, rest ++ Text.afterFirstLine text) := by
  intro front back
  simp only [Text.firstLine_append_break, Text.afterFirstLine_append_break]
  cases Text.splitLast? needle (Text.firstLine front) with
  | none => rfl
  | some parts => simp

theorem staysOnLine_readStatement? : StaysOnLine readStatement? :=
  staysOnLine_splitLast? ";"

theorem staysOnLine_readNonfinite? : StaysOnLine readNonfinite? := by
  have opening : '\n' ∉ Text.chars "(" := by simp [Text.chars_eq_toList]
  have closing : '\n' ∉ Text.chars ")" := by simp [Text.chars_eq_toList]
  have untilOpening := staysOnLine_run (fun character => character != '(' && character != '\n')
    (by decide)
  have untilClosing := staysOnLine_run (fun character => character != ')' && character != '\n')
    (by decide)
  have tail : ∀ callable arguments : List Char, StaysOnLine fun closed =>
      if callable.isEmpty then none
      else
        some (nonfinite callable arguments (Text.firstLine closed),
          Text.afterFirstLine closed) := by
    intro callable arguments front back
    simp only [Text.firstLine_append_break, Text.afterFirstLine_append_break]
    split <;> rfl
  exact untilOpening.bind fun callable =>
    .after opening (untilClosing.bind fun arguments => .after closing (tail callable arguments))

theorem staysOnLine_readPixelColor? (coordinates : List Char) :
    StaysOnLine (readPixelColor? coordinates) := by
  have exactly : '\n' ∉ Text.chars " == " := by simp [Text.chars_eq_toList]
  have nearly : '\n' ∉ Text.chars " ==~ " := by simp [Text.chars_eq_toList]
  have tolerance : '\n' ∉ Text.chars " +/- " := by simp [Text.chars_eq_toList]
  have closing : '\n' ∉ Text.chars ";" := by simp [Text.chars_eq_toList]
  refine .afterOr exactly ?_ (.after nearly ?_)
  · exact (staysOnLine_readNumbers? 3).bind fun color =>
      .after closing (.pure (Directive.pixel coordinates color .exact))
  · exact (staysOnLine_readNumbers? 3).bind fun color =>
      .afterOr closing (.pure (Directive.pixel coordinates color .configured))
        (.after tolerance (staysOnLine_readDigits?.bind fun amount =>
          .after closing (.pure (Directive.pixel coordinates color (.explicit amount)))))

theorem staysOnLine_readPixel? : StaysOnLine readPixel? :=
  (staysOnLine_readNumbers? 1).bind staysOnLine_readPixelColor?

theorem staysOnLine_readAssertion? : StaysOnLine readAssertion? := by
  have pixel : '\n' ∉ Text.chars "pixel " := by simp [Text.chars_eq_toList]
  have first := StaysOnLine.after pixel staysOnLine_readPixel?
  intro front back
  simp only [readAssertion?, first front back, staysOnLine_readStatement? front back]
  cases (Text.after? "pixel " front).bind readPixel? with
  | some found => rfl
  | none => cases readStatement? front <;> rfl

theorem noBreak_source_of_mem_markers {marker : Directive} (member : marker ∈ markers) :
    '\n' ∉ marker.source := by
  simp only [markers, List.mem_cons, List.not_mem_nil, or_false] at member
  rcases member with rfl | rfl | rfl | rfl
  all_goals simp [source, Text.chars_eq_toList]

theorem staysOnLine_readMarker? : StaysOnLine readMarker? := by
  have general : ∀ expected : List Directive, (∀ marker ∈ expected, '\n' ∉ marker.source) →
      StaysOnLine fun text => expected.findSome? fun marker =>
        (Text.after? marker.source text).map (marker, ·) := by
    intro expected noBreak front back
    induction expected with
    | nil => rfl
    | cons marker expected inductionHypothesis =>
        rw [List.forall_mem_cons] at noBreak
        simp only [List.findSome?_cons, Text.after?_append_cons noBreak.1,
          inductionHypothesis noBreak.2]
        cases Text.after? marker.source front <;> rfl
  exact general markers fun _ => noBreak_source_of_mem_markers

/-- A directive is read on its line. -/
theorem staysOnLine_read? (stage : Stage) : StaysOnLine (read? stage) := by
  have nonfinite : '\n' ∉ Text.chars "@nonfinite " := by simp [Text.chars_eq_toList]
  have assertion : '\n' ∉ Text.chars "@assert " := by simp [Text.chars_eq_toList]
  cases stage with
  | expansion => exact .after nonfinite staysOnLine_readNonfinite?
  | directive => exact .afterOr assertion staysOnLine_readAssertion? staysOnLine_readMarker?

/-- Every directive begins with a mark. -/
theorem source_eq_cons (directive : Directive) :
    ∃ rest, directive.source = '@' :: rest := by
  rcases directive with _ | ⟨_, _, _ | _ | _⟩ | _ | _ | _ | _ | _ | _ | _ | _ <;>
    exact ⟨_, by simp [Directive.source, Text.chars_eq_toList]; rfl⟩

/-- No directive holds a line break. -/
theorem noBreak_source_of_read?_eq_some
    {stage : Stage}
    {text rest : List Char}
    {directive : Directive}
    (found : read? stage text = some (directive, rest)) :
    '\n' ∉ directive.source := by
  intro member
  obtain ⟨front, back, source_eq, notBefore⟩ := List.eq_append_cons_of_mem member
  have whole := eq_source_append_of_read?_eq_some found
  rw [source_eq, List.append_assoc, List.cons_append] at whole
  rw [whole, staysOnLine_read? stage, Option.map_eq_some_iff] at found
  obtain ⟨⟨other, earlier⟩, isFound, item_eq⟩ := found
  obtain ⟨rfl, -⟩ := Prod.mk.inj item_eq
  rw [eq_source_append_of_read?_eq_some isFound] at notBefore
  exact notBefore (List.mem_append_left earlier member)

end Directive

namespace Body

theorem pieces_of_read?_eq_some
    {stage : Stage}
    {text rest : List Char}
    {directive : Directive}
    (found : Directive.read? stage text = some (directive, rest)) :
    pieces stage text = .active directive :: pieces stage rest := by
  cases text with
  | nil => exact absurd (Directive.length_lt_of_read?_eq_some found) (Nat.not_lt_zero _)
  | cons character text =>
      rw [pieces]
      split
      · next other after isFound =>
          rw [found, Option.some.injEq, Prod.mk.injEq] at isFound
          obtain ⟨rfl, rfl⟩ := isFound
          rfl
      · next notFound => simp [found] at notFound

theorem pieces_of_read?_eq_none
    {stage : Stage}
    {character : Char}
    {text : List Char}
    (absent : Directive.read? stage (character :: text) = none) :
    pieces stage (character :: text) = .plain character :: pieces stage text := by
  rw [pieces]
  split
  · next directive rest found => simp [absent] at found
  · rfl

/-- Text without a mark is plain. -/
theorem pieces_append_of_not_mem (unmarked : '@' ∉ front) (stage : Stage) (text : List Char) :
    pieces stage (front ++ text) = front.map .plain ++ pieces stage text := by
  induction front with
  | nil => rfl
  | cons character front inductionHypothesis =>
      rw [List.mem_cons, not_or] at unmarked
      have absent : Directive.read? stage (character :: (front ++ text)) = none := by
        rw [Option.eq_none_iff_forall_ne_some]
        rintro ⟨directive, rest⟩ found
        obtain ⟨others, isMarked⟩ := Directive.source_eq_cons directive
        have parts := Directive.eq_source_append_of_read?_eq_some found
        rw [isMarked, List.cons_append, List.cons.injEq] at parts
        exact unmarked.1 parts.1.symm
      rw [List.cons_append, pieces_of_read?_eq_none absent, inductionHypothesis unmarked.2,
        List.map_cons, List.cons_append]

/-- The pieces of a body are the pieces of its lines, with the line breaks between them. -/
theorem pieces_append_break (stage : Stage) (front back : List Char) :
    pieces stage (front ++ '\n' :: back) =
      pieces stage front ++ .plain '\n' :: pieces stage back := by
  have stays := Directive.staysOnLine_read? stage front back
  cases found : Directive.read? stage front with
  | some item =>
      obtain ⟨directive, rest⟩ := item
      rw [found, Option.map_some] at stays
      have shorter := Directive.length_lt_of_read?_eq_some found
      rw [pieces_of_read?_eq_some stays, pieces_of_read?_eq_some found,
        pieces_append_break stage rest back, List.cons_append]
  | none =>
      rw [found, Option.map_none] at stays
      match front with
      | [] => rw [List.nil_append, pieces_of_read?_eq_none stays, pieces, List.nil_append]
      | character :: front =>
          rw [List.cons_append] at stays ⊢
          rw [pieces_of_read?_eq_none stays, pieces_of_read?_eq_none found,
            pieces_append_break stage front back, List.cons_append]
termination_by front.length

/-- The directives of a body are read somewhere in it. -/
theorem exists_read?_of_mem_pieces
    {stage : Stage}
    {text : List Char}
    {directive : Directive}
    (member : .active directive ∈ pieces stage text) :
    ∃ front rest, Directive.read? stage front = some (directive, rest) := by
  fun_induction pieces stage text with
  | case1 => exact absurd member (List.not_mem_nil)
  | case2 character text first rest found inductionHypothesis =>
      rcases List.mem_cons.1 member with same | later
      · obtain rfl := Piece.active.inj same
        exact ⟨_, _, found⟩
      · exact inductionHypothesis later
  | case3 character text found inductionHypothesis =>
      rcases List.mem_cons.1 member with same | later
      · cases same
      · exact inductionHypothesis later

/-- No directive of a body reaches over a line break. -/
theorem noBreak_source_of_mem_pieces
    {stage : Stage}
    {text : List Char}
    {directive : Directive}
    (member : .active directive ∈ pieces stage text) :
    '\n' ∉ directive.source := by
  obtain ⟨front, rest, found⟩ := exists_read?_of_mem_pieces member
  exact Directive.noBreak_source_of_read?_eq_some found

end Body
end Conformance
