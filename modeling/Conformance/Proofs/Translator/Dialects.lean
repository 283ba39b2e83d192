import Conformance.Proofs.Directive.Operands
import Conformance.Proofs.Translator.Lines

/-!
# The dialects accept the same bodies

In a body without marks of failing statements every directive is rewritten, and the code of either
dialect holds a mark where the other one does.  Embedded code is mended afterwards.  That changes
what is accepted only if the code then holds the mark of a failing statement: the beginning of one,
in front of the code of an assertion.
-/

namespace Conformance

open scoped Text

variable {tolerance : Nat}

namespace Body

variable {stage : Stage} {dialect : Dialect} {character : Char} {text rest : List Char}
variable {directive : Directive}

/-! ## Code of a body without marks of failing statements -/

theorem unmarked_of_cons (unmarked : ¬ HoldsTodo (character :: text)) : ¬ HoldsTodo text :=
  mt (HoldsTodo.cons character) unmarked

theorem unmarked_of_read?
    (unmarked : ¬ HoldsTodo text)
    (found : Directive.read? stage text = some (directive, rest)) :
    ¬ HoldsTodo rest := by
  rw [Directive.eq_source_append_of_read?_eq_some found] at unmarked
  exact fun holds => unmarked (holds.mono (List.suffix_append _ _).isInfix)

/-- The code of a piece that leaves the space in front of it. -/
def Piece.code (dialect : Dialect) (tolerance : Nat) : Piece → List Char
  | .plain character => [character]
  | .active directive => dialect.render tolerance directive

theorem source_infix_of_mem_pieces {piece : Piece} (member : piece ∈ pieces stage text) :
    piece.source <:+: text := by
  obtain ⟨front, back, split⟩ := List.append_of_mem member
  have whole := flatMap_source_pieces stage text
  rw [split, List.flatMap_append, List.flatMap_cons] at whole
  exact ⟨front.flatMap Piece.source, back.flatMap Piece.source, by rw [← whole, List.append_assoc]⟩

theorem todo_not_mem_pieces (unmarked : ¬ HoldsTodo text) : .active .todo ∉ pieces stage text :=
  fun member => unmarked (source_infix_of_mem_pieces member)

/-- Only the mark of a failing statement takes the space in front of it along. -/
theorem write_eq_code
    {piece : Piece}
    (notTodo : piece ≠ .active .todo)
    (written : List Char) :
    piece.write dialect tolerance written =
      (piece.code dialect tolerance).reverse ++ written := by
  cases piece with
  | plain character => rfl
  | active directive =>
      have stays : directive.absorbsLeadingSpace = false := by
        cases directive
        case todo => exact absurd rfl notTodo
        all_goals rfl
      rw [Piece.write, stays]
      rfl

theorem foldl_write_eq
    {pieces : List Piece}
    (noTodo : .active .todo ∉ pieces)
    (written : List Char) :
    pieces.foldl (Piece.write dialect tolerance) written =
      (pieces.flatMap (Piece.code dialect tolerance)).reverse ++ written := by
  induction pieces generalizing written with
  | nil => rfl
  | cons piece pieces inductionHypothesis =>
      rw [List.mem_cons, not_or] at noTodo
      rw [List.foldl_cons, inductionHypothesis noTodo.2, write_eq_code (Ne.symm noTodo.1),
        List.flatMap_cons, List.reverse_append, List.append_assoc]

theorem render_eq_flatMap_code
    (unmarked : ¬ HoldsTodo text)
    (dialect : Dialect)
    (tolerance : Nat) :
    render dialect tolerance text =
      (pieces .directive text).flatMap (Piece.code dialect tolerance) := by
  rw [render, foldl_write_eq (todo_not_mem_pieces unmarked), List.append_nil, List.reverse_reverse]

theorem render_nil (dialect : Dialect) (tolerance : Nat) : render dialect tolerance [] = [] := by
  rw [render, pieces]
  rfl

/-- A body begins with a directive: its code stands in front of the code of the rest. -/
theorem render_of_read?_eq_some
    (unmarked : ¬ HoldsTodo text)
    (found : Directive.read? .directive text = some (directive, rest))
    (dialect : Dialect)
    (tolerance : Nat) :
    render dialect tolerance text =
      dialect.render tolerance directive ++ render dialect tolerance rest := by
  rw [render_eq_flatMap_code unmarked, render_eq_flatMap_code (unmarked_of_read? unmarked found),
    pieces_of_read?_eq_some found, List.flatMap_cons]
  rfl

/-- A body begins with another character: it stays in front of the code of the rest. -/
theorem render_of_read?_eq_none
    (unmarked : ¬ HoldsTodo (character :: text))
    (absent : Directive.read? .directive (character :: text) = none)
    (dialect : Dialect)
    (tolerance : Nat) :
    render dialect tolerance (character :: text) =
      character :: render dialect tolerance text := by
  rw [render_eq_flatMap_code unmarked, render_eq_flatMap_code (unmarked_of_cons unmarked),
    pieces_of_read?_eq_none absent, List.flatMap_cons]
  rfl

/-- A directive of a body without marks of failing statements is rewritten. -/
theorem isRewritten_of_read?_eq_some
    (unmarked : ¬ HoldsTodo text)
    (found : Directive.read? .directive text = some (directive, rest)) :
    directive.isRewritten = true := by
  refine (Directive.isRewritten_or_eq_todo_of_read?_eq_some found).resolve_right ?_
  rintro rfl
  rw [Directive.eq_source_append_of_read?_eq_some found] at unmarked
  exact unmarked (List.prefix_append _ _).isInfix

/-! ## Marks in the code -/

/-- The dialects leave a mark in the code of the same bodies. -/
theorem mem_render_standalone_iff (unmarked : ¬ HoldsTodo text) (tolerance : Nat) :
    '@' ∈ render .standalone tolerance text ↔ '@' ∈ render .embedded tolerance text := by
  fun_induction pieces .directive text with
  | case1 => rw [render_nil, render_nil]
  | case2 character text directive rest found inductionHypothesis =>
      have rewritten := isRewritten_of_read?_eq_some unmarked found
      rw [render_of_read?_eq_some unmarked found, render_of_read?_eq_some unmarked found,
        List.mem_append, List.mem_append, Directive.mem_render_iff rewritten,
        Directive.mem_render_iff rewritten, inductionHypothesis (unmarked_of_read? unmarked found)]
  | case3 character text absent inductionHypothesis =>
      rw [render_of_read?_eq_none unmarked absent, render_of_read?_eq_none unmarked absent,
        List.mem_cons, List.mem_cons, inductionHypothesis (unmarked_of_cons unmarked)]

/-- What ends the mark of a failing statement stands at the beginning of embedded code only if the
body begins with it, or with all but its last character and an assertion. -/
theorem prefix_of_prefix_render
    (unmarked : ¬ HoldsTodo text)
    {word : List Char}
    (nonempty : word ≠ [])
    (ends : word <:+ ['m', 'o', 'z', '-', 't', 'o', 'd', 'o'])
    (begins : word <+: render .embedded tolerance text) :
    word <+: text ∨ ∃ front, word = front ++ ['o'] ∧ front ++ Text.chars "@assert " <+: text := by
  fun_induction pieces .directive text generalizing word with
  | case1 =>
      rw [render_nil] at begins
      exact .inl begins
  | case2 character text directive rest found inductionHypothesis =>
      rw [render_of_read?_eq_some unmarked found] at begins
      obtain ⟨rfl, isAssertion⟩ := Directive.eq_of_ends_in_embedded
        (isRewritten_of_read?_eq_some unmarked found) nonempty ends begins
      refine .inr ⟨[], rfl, ?_⟩
      rw [Directive.eq_source_append_of_read?_eq_some found]
      exact isAssertion.trans (List.prefix_append _ _)
  | case3 character text absent inductionHypothesis =>
      rw [render_of_read?_eq_none unmarked absent] at begins
      obtain ⟨first, word, rfl⟩ := List.exists_cons_of_ne_nil nonempty
      obtain ⟨rfl, further⟩ := List.cons_prefix_cons.1 begins
      by_cases last : word = []
      · exact .inl (by simp [last])
      · have endsToo := (List.suffix_cons first word).trans ends
        rcases inductionHypothesis (unmarked_of_cons unmarked) last endsToo further with
          inText | ⟨front, rfl, inText⟩
        · exact .inl (List.cons_prefix_cons.2 ⟨rfl, inText⟩)
        · exact .inr ⟨first :: front, rfl, List.cons_prefix_cons.2 ⟨rfl, inText⟩⟩

/-- Embedded code holds the mark of a failing statement only if the body holds the beginning of one
in front of an assertion. -/
theorem seam_of_holdsTodo_render
    (unmarked : ¬ HoldsTodo text)
    (holds : HoldsTodo (render .embedded tolerance text)) :
    "@moz-tod@assert ".toList <:+: text := by
  fun_induction pieces .directive text with
  | case1 => simp [render_nil] at holds
  | case2 character text directive rest found inductionHypothesis =>
      have parts := Directive.eq_source_append_of_read?_eq_some found
      rw [render_of_read?_eq_some unmarked found] at holds
      rcases Directive.holdsTodo_of_render_append
        (isRewritten_of_read?_eq_some unmarked found) holds with inSource | later
      · rw [parts] at unmarked
        exact absurd (inSource.mono (List.prefix_append _ _).isInfix) unmarked
      · rw [parts]
        exact (inductionHypothesis (unmarked_of_read? unmarked found) later).trans
          (List.suffix_append _ _).isInfix
  | case3 character text absent inductionHypothesis =>
      rw [render_of_read?_eq_none unmarked absent] at holds
      rcases List.infix_cons_iff.1 holds with begins | later
      · rw [HoldsTodo.source_todo] at begins
        obtain ⟨rfl, further⟩ := List.cons_prefix_cons.1 begins
        rcases prefix_of_prefix_render (unmarked_of_cons unmarked) (by decide)
          (List.suffix_refl _) further with inText | ⟨front, parts, inText⟩
        · refine absurd ?_ unmarked
          rw [HoldsTodo, HoldsTodo.source_todo]
          exact (List.cons_prefix_cons.2 ⟨rfl, inText⟩).isInfix
        · obtain rfl : ['m', 'o', 'z', '-', 't', 'o', 'd'] = front :=
            List.append_cancel_right parts
          have seam : '@' :: (['m', 'o', 'z', '-', 't', 'o', 'd'] ++ Text.chars "@assert ") =
              "@moz-tod@assert ".toList := by simp [Text.chars_eq_toList]
          rw [← seam]
          exact (List.cons_prefix_cons.2 ⟨rfl, inText⟩).isInfix
      · exact (inductionHypothesis (unmarked_of_cons unmarked) later).trans
          (List.suffix_cons _ _).isInfix

/-! ## Mending embedded code -/

theorem holdsTodo_todoMark : HoldsTodo todoMark :=
  ⟨"; ", [], by simp [todoMark, Directive.source, Text.chars_eq_toList]⟩

theorem markedStatement?_of_unmarked (keyword : List Char) (unmarked : ¬ HoldsTodo text) :
    markedStatement? keyword text = none := by
  cases found : markedStatement? keyword text with
  | none => rfl
  | some parts =>
      obtain ⟨blanks, operands, rest⟩ := parts
      rw [eq_of_markedStatement?_eq_some found] at unmarked
      refine absurd (holdsTodo_todoMark.mono ?_) unmarked
      exact (List.suffix_append _ _).isInfix.trans (List.prefix_append _ _).isInfix

theorem renameMarkedLater_of_unmarked
    (keyword renamed : List Char)
    (unmarked : ¬ HoldsTodo text) :
    renameMarkedLater keyword renamed text = text := by
  induction text with
  | nil => rw [renameMarkedLater]
  | cons character text inductionHypothesis =>
      have unmarkedRest := unmarked_of_cons unmarked
      rw [renameMarkedLater_cons, renameMarked, markedStatement?_of_unmarked keyword unmarkedRest]
      simp only [inductionHypothesis unmarkedRest, ite_self]

/-- Code without marks of failing statements is left as it is. -/
theorem renameMarked_of_unmarked
    (keyword renamed : List Char)
    (unmarked : ¬ HoldsTodo text) :
    renameMarked keyword renamed text = text := by
  rw [renameMarked, markedStatement?_of_unmarked keyword unmarked]
  exact renameMarkedLater_of_unmarked keyword renamed unmarked

end Body

namespace Translator

variable {translator : Translator} {body : String}

/-- Mending code without marks of failing statements keeps its directive marks. -/
theorem mem_embed_iff
    (notDirectory : '@' ∉ translator.sharedImageDirectory.toList)
    (notStart : '@' ∉ translator.embeddedImageStart.toList)
    {code : List Char}
    (unmarked : ¬ HoldsTodo code) :
    '@' ∈ translator.embed code ↔ '@' ∈ code := by
  rw [embed, Body.renameMarked_of_unmarked "ok" "todo" unmarked,
    Body.renameMarked_of_unmarked "is" "todo_is" unmarked,
    Text.mem_replace_iff notDirectory, or_iff_left fun added => notStart added.2]

/-- A body is translated in a dialect. -/
def Accepts (translator : Translator) (dialect : Dialect) (body : String) : Prop :=
  ∃ code, translator.translate dialect body = .ok code

theorem accepts_iff {dialect : Dialect} :
    translator.Accepts dialect body ↔
      ∃ expanded, Body.expand body.toList = .ok expanded ∧
        '@' ∉ translator.render dialect expanded := by
  simp only [Accepts, translate_eq_ok_iff, translateText_eq_ok_iff]
  constructor
  · rintro ⟨code, expanded, isExpanded, unmarked, -⟩
    exact ⟨expanded, isExpanded, unmarked⟩
  · rintro ⟨expanded, isExpanded, unmarked⟩
    exact ⟨String.ofList _, expanded, isExpanded, unmarked, String.toList_ofList⟩

/-- A call with too few alternatives is refused before the code of a dialect is written. -/
theorem translate_eq_arity_iff {dialect : Dialect} {callable : String} :
    translator.translate dialect body = .error (.arity callable) ↔
      Body.expand body.toList = .error (.arity callable) := by
  rw [translate, translateText]
  cases Body.expand body.toList with
  | error fault => simp [bind, Except.bind]
  | ok expanded =>
      simp only [bind, Except.bind, checked]
      cases Body.leftover? (translator.render dialect expanded) <;> simp [pure, Except.pure]

/-- Bodies without marks of failing statements are refused in both dialects for a call with too few
alternatives, and otherwise accepted in both unless mending embedded code takes away every mark that
the dialects leave.  That needs the beginning of a mark in front of an assertion. -/
theorem accepts_standalone_iff_embedded
    (notDirectory : '@' ∉ translator.sharedImageDirectory.toList)
    (notStart : '@' ∉ translator.embeddedImageStart.toList)
    (unmarked : ∀ expanded, Body.expand body.toList = .ok expanded → ¬ HoldsTodo expanded) :
    (∀ callable, translator.translate .standalone body = .error (.arity callable) ↔
      translator.translate .embedded body = .error (.arity callable)) ∧
    (translator.Accepts .standalone body → translator.Accepts .embedded body) ∧
    ((translator.Accepts .standalone body ↔ translator.Accepts .embedded body) ↔
      ∀ expanded, Body.expand body.toList = .ok expanded →
        '@' ∈ Body.render .embedded translator.pixelTolerance expanded →
        '@' ∈ translator.embed (Body.render .embedded translator.pixelTolerance expanded)) ∧
    ((∀ expanded, Body.expand body.toList = .ok expanded →
        ¬ "@moz-tod@assert ".toList <:+: expanded) →
      (translator.Accepts .standalone body ↔ translator.Accepts .embedded body)) := by
  refine ⟨fun callable => translate_eq_arity_iff.trans translate_eq_arity_iff.symm, ?_⟩
  cases isExpanded : Body.expand body.toList with
  | error fault => simp [accepts_iff, isExpanded]
  | ok expanded =>
      have unmarkedExpanded := unmarked expanded isExpanded
      have kept : ∀ {code}, ¬ HoldsTodo code → ('@' ∈ translator.embed code ↔ '@' ∈ code) :=
        mem_embed_iff notDirectory notStart
      have standalone : translator.Accepts .standalone body ↔
          '@' ∉ Body.render .embedded translator.pixelTolerance expanded := by
        rw [← Body.mem_render_standalone_iff unmarkedExpanded]
        simp [accepts_iff, isExpanded, render]
      have embedded : translator.Accepts .embedded body ↔
          '@' ∉ translator.embed (Body.render .embedded translator.pixelTolerance expanded) := by
        simp [accepts_iff, isExpanded, render]
      have forward : translator.Accepts .standalone body → translator.Accepts .embedded body := by
        rw [standalone, embedded]
        intro absent
        rwa [kept (mt HoldsTodo.mem absent)]
      refine ⟨forward, ?_, fun noSeam => ?_⟩
      · simp only [Except.ok.injEq, forall_eq']
        constructor
        · intro same marked
          by_contra absent
          exact standalone.1 (same.2 (embedded.2 absent)) marked
        · intro keeps
          exact ⟨forward, fun accepted => standalone.2 (mt keeps (embedded.1 accepted))⟩
      · rw [standalone, embedded, kept]
        exact mt (Body.seam_of_holdsTodo_render unmarkedExpanded) (noSeam expanded rfl)

/-- A match and a comparison at a boundary are accepted in both dialects. -/
theorem accepts_standalone_iff_embedded_boundary :
    '@' ∉ ({} : Translator).sharedImageDirectory.toList ∧
      '@' ∉ ({} : Translator).embeddedImageStart.toList ∧
      Body.expand "@assert a =~ /b/;\n@nonfinite @assert 0 == g(<1 NaN>);".toList =
        .ok "@assert a =~ /b/;\n@assert 0 == g(NaN);".toList ∧
      ¬ HoldsTodo "@assert a =~ /b/;\n@assert 0 == g(NaN);".toList ∧
      ({} : Translator).Accepts .standalone
        "@assert a =~ /b/;\n@nonfinite @assert 0 == g(<1 NaN>);" ∧
      ({} : Translator).Accepts .embedded
        "@assert a =~ /b/;\n@nonfinite @assert 0 == g(<1 NaN>);" := by
  have notDirectory : '@' ∉ ({} : Translator).sharedImageDirectory.toList := by decide
  have notStart : '@' ∉ ({} : Translator).embeddedImageStart.toList := by decide
  have isExpanded : Body.expand "@assert a =~ /b/;\n@nonfinite @assert 0 == g(<1 NaN>);".toList =
      .ok "@assert a =~ /b/;\n@assert 0 == g(NaN);".toList := by decide +kernel
  have unmarked : ¬ HoldsTodo "@assert a =~ /b/;\n@assert 0 == g(NaN);".toList := by
    rw [HoldsTodo, HoldsTodo.source_todo]
    decide +kernel
  have standalone : ({} : Translator).Accepts .standalone
      "@assert a =~ /b/;\n@nonfinite @assert 0 == g(<1 NaN>);" :=
    ⟨"_assertMatch(a, /b/, \"a\", \"/b/\");\n_assertEqual(0, g(NaN), \"0\", \"g(NaN)\");",
      by decide +kernel⟩
  have agree := accepts_standalone_iff_embedded notDirectory notStart (by
    intro expanded found
    rw [isExpanded] at found
    obtain rfl := Except.ok.inj found
    exact unmarked)
  exact ⟨notDirectory, notStart, isExpanded, unmarked, standalone, agree.2.1 standalone⟩

/-- The code of an assertion completes the mark in front of it, and mending takes the mark away with
the beginning of the assertion. -/
theorem not_accepts_standalone_iff_embedded :
    '@' ∉ ({} : Translator).sharedImageDirectory.toList ∧
      '@' ∉ ({} : Translator).embeddedImageStart.toList ∧
      Body.expand "ok(y); @moz-tod@assert x;".toList = .ok "ok(y); @moz-tod@assert x;".toList ∧
      ¬ HoldsTodo "ok(y); @moz-tod@assert x;".toList ∧
      ({} : Translator).translate .standalone "ok(y); @moz-tod@assert x;" =
        .error (.untranslatedDirective "@moz-tod_assert(x,") ∧
      ({} : Translator).translate .embedded "ok(y); @moz-tod@assert x;" =
        .ok "todo(y);k(x, \"x\");" ∧
      ¬ (({} : Translator).Accepts .standalone "ok(y); @moz-tod@assert x;" ↔
        ({} : Translator).Accepts .embedded "ok(y); @moz-tod@assert x;") := by
  have standalone : ({} : Translator).translate .standalone "ok(y); @moz-tod@assert x;" =
      .error (.untranslatedDirective "@moz-tod_assert(x,") := by decide +kernel
  have embedded : ({} : Translator).translate .embedded "ok(y); @moz-tod@assert x;" =
      .ok "todo(y);k(x, \"x\");" := by decide +kernel
  have unmarked : ¬ HoldsTodo "ok(y); @moz-tod@assert x;".toList := by
    rw [HoldsTodo, HoldsTodo.source_todo]
    decide +kernel
  refine ⟨by decide, by decide, by decide +kernel, unmarked, standalone, embedded, fun same => ?_⟩
  obtain ⟨code, accepted⟩ := same.2 ⟨_, embedded⟩
  rw [standalone] at accepted
  exact nomatch accepted

end Translator

end Conformance
