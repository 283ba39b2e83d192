/-!
# Errors

What can go wrong with one record of a suite, and the words it is reported in.
-/

namespace Conformance

/-- Why a record, the document or the configuration was refused. -/
inductive Error where
  /-- The prose pattern of an assertion has no single place for its anchor. -/
  | malformedPattern (id detail : String)
  /-- A call to be expanded has no argument, or an argument without a valid value. -/
  | arity (callable : String)
  /-- A directive is left in translated code. -/
  | untranslatedDirective (fragment : String)
  /-- The document could not be read. -/
  | markup (position : Nat) (detail : String)
  /-- The configuration could not be read. -/
  | config (path detail : String)
deriving DecidableEq, Inhabited, Repr

namespace Error

/-- The error in words. -/
def message : Error → String
  | .malformedPattern id detail => s!"malformed pattern for spec assertion {id}: {detail}"
  | .arity callable =>
      s!"nonfinite expansion of `{callable}` needs at least one argument with a valid value"
  | .untranslatedDirective fragment => s!"untranslated directive `{fragment}`"
  | .markup position detail => s!"markup error at byte {position}: {detail}"
  | .config path detail => s!"failed to load config: {path}: {detail}"

end Error

end Conformance
