import Conformance.Translator
import Conformance.Proofs.Directive.Lines
import Mathlib.Data.List.TakeWhile

/-!
# Translating line by line

Every stage of a translation treats the lines of its text on their own: expanding, rendering,
resolving marks, replacing image paths and looking for directives that are left.  The main
statement is that two bodies with a line break between them are translated exactly if each of them
is, into their translations with a line break between them.
-/

namespace Conformance

open scoped Text

namespace Body

/-! ## The passes -/

theorem expand_append_break (front back : List Char) :
    expand (front ++ '\n' :: back) = do
      let first ← expand front
      let second ← expand back
      return first ++ '\n' :: second := by
  simp only [expand, pieces_append_break, List.mapM_append, List.mapM_cons]
  cases (pieces .expansion front).mapM Piece.expand with
  | error fault => rfl
  | ok first =>
      cases (pieces .expansion back).mapM Piece.expand with
      | error fault => rfl
      | ok second => simp [Piece.expand, bind, Except.bind, pure, Except.pure]

theorem withoutSpace_append_break (written earlier : List Char) :
    withoutSpace (written ++ '\n' :: earlier) = withoutSpace written ++ '\n' :: earlier := by
  cases written with
  | nil => rfl
  | cons character written =>
      by_cases isSpace : character = ' '
      · subst isSpace
        rfl
      · simp [withoutSpace, isSpace]

/-- Writing behind a line break leaves what is in front of the break. -/
theorem write_append_break
    (dialect : Dialect)
    (tolerance : Nat)
    (piece : Piece)
    (written earlier : List Char) :
    piece.write dialect tolerance (written ++ '\n' :: earlier) =
      piece.write dialect tolerance written ++ '\n' :: earlier := by
  cases piece with
  | plain character => rfl
  | active directive =>
      rw [Piece.write, Piece.write, withoutSpace_append_break]
      split <;> simp

theorem foldl_write_append_break
    (dialect : Dialect)
    (tolerance : Nat)
    (pieces : List Piece)
    (written earlier : List Char) :
    pieces.foldl (Piece.write dialect tolerance) (written ++ '\n' :: earlier) =
      pieces.foldl (Piece.write dialect tolerance) written ++ '\n' :: earlier := by
  induction pieces generalizing written with
  | nil => rfl
  | cons piece pieces inductionHypothesis =>
      rw [List.foldl_cons, List.foldl_cons, write_append_break, inductionHypothesis]

theorem render_append_break (dialect : Dialect) (tolerance : Nat) (front back : List Char) :
    render dialect tolerance (front ++ '\n' :: back) =
      render dialect tolerance front ++ '\n' :: render dialect tolerance back := by
  simp only [render, pieces_append_break, List.foldl_append, List.foldl_cons, Piece.write]
  rw [← List.nil_append ('\n' :: _), foldl_write_append_break]
  simp

/-! ## Marked statements -/

variable {keyword renamed front : List Char}

theorem markedStatement?_eq (keyword text : List Char) :
    markedStatement? keyword text =
      ((Text.after? keyword (text.dropWhile Text.isBlank)).bind fun afterKeyword =>
        (Text.splitLast? todoMark (Text.firstLine afterKeyword)).map fun (operands, rest) =>
          (operands, rest ++ Text.afterFirstLine afterKeyword)).map fun (operands, rest) =>
            (text.takeWhile Text.isBlank, operands, rest) := by
  simp only [markedStatement?]
  cases Text.after? keyword (text.dropWhile Text.isBlank) with
  | none => rfl
  | some afterKeyword =>
      cases split : Text.splitLast? todoMark (Text.firstLine afterKeyword) <;> simp [split]

theorem markedStatement?_of_blank
    (nonempty : keyword ≠ [])
    (allBlank : ∀ character ∈ front, Text.isBlank character = true) :
    markedStatement? keyword front = none := by
  obtain ⟨first, others, rfl⟩ := List.exists_cons_of_ne_nil nonempty
  rw [markedStatement?_eq, List.dropWhile_eq_nil_iff.2 allBlank]
  rfl

/-- Blanks in front of a statement may be on earlier lines. -/
theorem markedStatement?_append_break_of_blank
    (keyword : List Char)
    (allBlank : ∀ character ∈ front, Text.isBlank character = true)
    (back : List Char) :
    markedStatement? keyword (front ++ '\n' :: back) =
      (markedStatement? keyword back).map fun (blanks, operands, rest) =>
        (front ++ '\n' :: blanks, operands, rest) := by
  have isBlank : Text.isBlank '\n' = true := by decide
  simp only [markedStatement?_eq, List.takeWhile_append_of_pos allBlank,
    List.dropWhile_append_of_pos allBlank, List.takeWhile_cons_of_pos isBlank,
    List.dropWhile_cons_of_pos isBlank, Option.map_map]
  rfl

/-- A marked statement ends on the line on which it begins. -/
theorem markedStatement?_append_break
    (noBreak : '\n' ∉ keyword)
    (notBlank : ¬ ∀ character ∈ front, Text.isBlank character = true)
    (back : List Char) :
    markedStatement? keyword (front ++ '\n' :: back) =
      (markedStatement? keyword front).map fun (blanks, operands, rest) =>
        (blanks, operands, rest ++ '\n' :: back) := by
  have stays := Directive.StaysOnLine.after noBreak (Directive.staysOnLine_splitLast? todoMark)
  have left : front.dropWhile Text.isBlank ≠ [] := fun nothing =>
    notBlank (List.dropWhile_eq_nil_iff.1 nothing)
  have taken : (front ++ '\n' :: back).takeWhile Text.isBlank = front.takeWhile Text.isBlank := by
    rw [List.takeWhile_append, if_neg]
    intro sameLength
    have whole := List.takeWhile_append_dropWhile (p := Text.isBlank) (l := front)
    have lengths := congrArg List.length whole
    rw [List.length_append, sameLength] at lengths
    exact left (List.eq_nil_of_length_eq_zero (by omega))
  have dropped : (front ++ '\n' :: back).dropWhile Text.isBlank =
      front.dropWhile Text.isBlank ++ '\n' :: back := by
    rw [List.dropWhile_append, if_neg (by simpa using left)]
  simp only [markedStatement?_eq, taken, dropped, stays (front.dropWhile Text.isBlank) back,
    Option.map_map]
  rfl

theorem length_lt_of_markedStatement?_eq_some
    {text : List Char}
    {parts : List Char × List Char × List Char}
    (found : markedStatement? keyword text = some parts) :
    parts.2.2.length < text.length := by
  obtain ⟨blanks, operands, rest⟩ := parts
  have whole := congrArg List.length (eq_of_markedStatement?_eq_some found)
  have mark : todoMark.length = 11 := by simp [todoMark, Text.chars_eq_toList]
  simp only [List.length_append] at whole ⊢
  omega

/-! ## Resolving marks -/

/-- Behind a line break or a semicolon begins a statement. -/
theorem renameMarkedLater_cons (keyword renamed : List Char) (character : Char) (text : List Char) :
    renameMarkedLater keyword renamed (character :: text) =
      character ::
        if character = '\n' ∨ character = ';' then renameMarked keyword renamed text
        else renameMarkedLater keyword renamed text := by
  rw [renameMarkedLater, renameMarked]
  split
  · next blanks operands rest found =>
      by_cases begins : character = '\n' ∨ character = ';'
      · rw [if_pos begins] at found ⊢
        rw [found]
      · rw [if_neg begins] at found
        cases found
  · next absent =>
      by_cases begins : character = '\n' ∨ character = ';'
      · rw [if_pos begins] at absent ⊢
        rw [absent]
      · rw [if_neg begins]

theorem renameMarkedLater_of_blank
    (nonempty : keyword ≠ [])
    (allBlank : ∀ character ∈ front, Text.isBlank character = true) :
    renameMarkedLater keyword renamed front = front := by
  induction front with
  | nil => rw [renameMarkedLater]
  | cons character front inductionHypothesis =>
      rw [List.forall_mem_cons] at allBlank
      rw [renameMarkedLater_cons, renameMarked, markedStatement?_of_blank nonempty allBlank.2]
      simp only [inductionHypothesis allBlank.2, ite_self]

mutual

theorem renameMarkedLater_append_break
    (nonempty : keyword ≠ [])
    (noBreak : '\n' ∉ keyword)
    (renamed front back : List Char) :
    renameMarkedLater keyword renamed (front ++ '\n' :: back) =
      renameMarkedLater keyword renamed front ++ '\n' :: renameMarked keyword renamed back := by
  match front with
  | [] => rw [List.nil_append, renameMarkedLater_cons, if_pos (.inl rfl), renameMarkedLater]; rfl
  | character :: front =>
      rw [List.cons_append, renameMarkedLater_cons, renameMarkedLater_cons]
      split
      · rw [renameMarked_append_break nonempty noBreak renamed front back, List.cons_append]
      · rw [renameMarkedLater_append_break nonempty noBreak renamed front back, List.cons_append]
termination_by (front.length, 0)

/-- Marks are resolved on each line. -/
theorem renameMarked_append_break
    (nonempty : keyword ≠ [])
    (noBreak : '\n' ∉ keyword)
    (renamed front back : List Char) :
    renameMarked keyword renamed (front ++ '\n' :: back) =
      renameMarked keyword renamed front ++ '\n' :: renameMarked keyword renamed back := by
  have later := renameMarkedLater_append_break nonempty noBreak renamed front back
  by_cases allBlank : ∀ character ∈ front, Text.isBlank character = true
  · have front_eq : renameMarked keyword renamed front = front := by
      rw [renameMarked, markedStatement?_of_blank nonempty allBlank]
      exact renameMarkedLater_of_blank nonempty allBlank
    rw [renameMarkedLater_of_blank nonempty allBlank] at later
    rw [front_eq, renameMarked, markedStatement?_append_break_of_blank keyword allBlank]
    cases found : markedStatement? keyword back with
    | none => exact later
    | some parts => simp [renameMarked, found]
  · rw [renameMarked, renameMarked.eq_1 keyword renamed front,
      markedStatement?_append_break noBreak allBlank]
    cases found : markedStatement? keyword front with
    | none => exact later
    | some parts =>
        have shorter := length_lt_of_markedStatement?_eq_some found
        have behind := renameMarkedLater_append_break nonempty noBreak renamed parts.2.2 back
        simp [behind]
termination_by (front.length, 1)

end

end Body

namespace Translator

variable {translator : Translator}

/-- Embedded code is mended line by line. -/
theorem embed_append_break
    (noBreak : '\n' ∉ translator.sharedImageDirectory.toList)
    (front back : List Char) :
    translator.embed (front ++ '\n' :: back) =
      translator.embed front ++ '\n' :: translator.embed back := by
  have ok := Body.renameMarked_append_break
    (show Text.chars "ok" ≠ [] by simp [Text.chars_eq_toList])
    (by simp [Text.chars_eq_toList]) "todo"
  have is := Body.renameMarked_append_break
    (show Text.chars "is" ≠ [] by simp [Text.chars_eq_toList])
    (by simp [Text.chars_eq_toList]) "todo_is"
  simp only [embed, ok, is, Text.replace_append_break noBreak]

theorem render_append_break
    (noBreak : '\n' ∉ translator.sharedImageDirectory.toList)
    (dialect : Dialect)
    (front back : List Char) :
    translator.render dialect (front ++ '\n' :: back) =
      translator.render dialect front ++ '\n' :: translator.render dialect back := by
  cases dialect with
  | standalone => exact Body.render_append_break .standalone _ front back
  | embedded =>
      simp only [render, Body.render_append_break, embed_append_break noBreak]

theorem leftover?_eq_none_iff {code : List Char} : Body.leftover? code = none ↔ '@' ∉ code := by
  have nothing : code.dropWhile (· != '@') = [] ↔ '@' ∉ code := by
    rw [List.dropWhile_eq_nil_iff]
    constructor
    · intro others member
      exact absurd (others '@' member) (by decide)
    · intro absent character member
      simpa using fun same : character = '@' => absent (same ▸ member)
  rw [← nothing, Body.leftover?]
  split
  · next left => simp [left]
  · next left => simpa using left

/-- Code is accepted if no directive mark is left in it. -/
theorem checked_eq_ok_iff {code accepted : List Char} :
    checked code = .ok accepted ↔ '@' ∉ code ∧ accepted = code := by
  rw [checked, ← leftover?_eq_none_iff]
  cases Body.leftover? code with
  | none => simp [eq_comm]
  | some fragment => simp

/-- A body is translated if its expansion renders to code without a directive mark. -/
theorem translateText_eq_ok_iff {dialect : Dialect} {body code : List Char} :
    translator.translateText dialect body = .ok code ↔
      ∃ expanded, Body.expand body = .ok expanded ∧
        '@' ∉ translator.render dialect expanded ∧ code = translator.render dialect expanded := by
  rw [translateText]
  cases Body.expand body with
  | error fault => simp [bind, Except.bind]
  | ok expanded => simp [bind, Except.bind, checked_eq_ok_iff]

theorem translateText_append_break
    (noBreak : '\n' ∉ translator.sharedImageDirectory.toList)
    (dialect : Dialect)
    (front back code : List Char) :
    translator.translateText dialect (front ++ '\n' :: back) = .ok code ↔
      ∃ first second, translator.translateText dialect front = .ok first ∧
        translator.translateText dialect back = .ok second ∧ code = first ++ '\n' :: second := by
  simp only [translateText_eq_ok_iff]
  rw [Body.expand_append_break]
  cases Body.expand front with
  | error fault => simp [bind, Except.bind]
  | ok first =>
      cases Body.expand back with
      | error fault => simp [bind, Except.bind]
      | ok second =>
          simp only [bind, Except.bind, pure, Except.pure, Except.ok.injEq, exists_eq_left',
            render_append_break noBreak, List.mem_append, List.mem_cons, not_or]
          constructor
          · rintro ⟨⟨inFirst, -, inSecond⟩, rfl⟩
            exact ⟨_, _, ⟨inFirst, rfl⟩, ⟨inSecond, rfl⟩, rfl⟩
          · rintro ⟨_, _, ⟨inFirst, rfl⟩, ⟨inSecond, rfl⟩, rfl⟩
            exact ⟨⟨inFirst, by decide, inSecond⟩, rfl⟩

theorem translate_eq_ok_iff {dialect : Dialect} {body code : String} :
    translator.translate dialect body = .ok code ↔
      translator.translateText dialect body.toList = .ok code.toList := by
  rw [translate]
  cases translator.translateText dialect body.toList with
  | error fault => simp [bind, Except.bind]
  | ok characters =>
      simp only [bind, Except.bind, pure, Except.pure, Except.ok.injEq]
      rw [← String.toList_inj, String.toList_ofList]

/-- Two bodies with a line break between them are translated exactly if both are, and each one as
on its own.  No directive holds a line break, and embedded code is mended line by line. -/
theorem translate_append_break
    (noBreak : '\n' ∉ translator.sharedImageDirectory.toList)
    (dialect : Dialect)
    (first second : String) :
    (∀ code, translator.translate dialect (first ++ "\n" ++ second) = .ok code ↔
      ∃ before after, translator.translate dialect first = .ok before ∧
        translator.translate dialect second = .ok after ∧ code = before ++ "\n" ++ after) ∧
    (∀ stage body directive, .active directive ∈ Body.pieces stage body →
      '\n' ∉ directive.source) ∧
    ∀ front back, translator.embed (front ++ '\n' :: back) =
      translator.embed front ++ '\n' :: translator.embed back := by
  refine ⟨fun code => ?_, fun _ _ _ => Body.noBreak_source_of_mem_pieces,
    embed_append_break noBreak⟩
  have break_eq : (first ++ "\n" ++ second).toList = first.toList ++ '\n' :: second.toList := by
    simp
  rw [translate_eq_ok_iff, break_eq, translateText_append_break noBreak]
  constructor
  · rintro ⟨before, after, isBefore, isAfter, code_eq⟩
    refine ⟨String.ofList before, String.ofList after, ?_, ?_, ?_⟩
    · simpa [translate_eq_ok_iff] using isBefore
    · simpa [translate_eq_ok_iff] using isAfter
    · rw [← String.toList_inj, code_eq]
      simp
  · rintro ⟨before, after, isBefore, isAfter, rfl⟩
    exact ⟨before.toList, after.toList, translate_eq_ok_iff.1 isBefore,
      translate_eq_ok_iff.1 isAfter, by simp⟩

/-- A mark on one line and an image on the next. -/
theorem translate_append_break_images :
    '\n' ∉ ({} : Translator).sharedImageDirectory.toList ∧
      ({} : Translator).translate .embedded
          ("@assert a == b; @moz-todo" ++ "\n" ++ "draw('../images/red.png');") =
        .ok ("todo(a == b, \"a == b\");" ++ "\n" ++ "draw('image_red.png');") := by
  have noBreak : '\n' ∉ ({} : Translator).sharedImageDirectory.toList := by decide
  have first : ({} : Translator).translate .embedded "@assert a == b; @moz-todo" =
      .ok "todo(a == b, \"a == b\");" := by decide +kernel
  have second : ({} : Translator).translate .embedded "draw('../images/red.png');" =
      .ok "draw('image_red.png');" := by decide +kernel
  exact ⟨noBreak, ((translate_append_break noBreak _ _ _).1 _).2 ⟨_, _, first, second, rfl⟩⟩

end Translator

end Conformance
