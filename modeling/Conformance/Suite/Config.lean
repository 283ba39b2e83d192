import Conformance.CrossReference.Annotator
import Conformance.Toml.Reader
import Conformance.Translator

/-!
# Configuration of a suite

The settings of a run.  Every setting may be left out.
-/

namespace Conformance
namespace Suite

open CrossReference (Annotator)

/-- How the annotated document is written. -/
structure DocumentSettings where
  /-- The stylesheet that the document links to; none if it is absent or empty. -/
  stylesheet : Option String := some "../spectest.css"
deriving DecidableEq, Inhabited, Repr

namespace DocumentSettings

/-- Reads the settings. -/
def ofValue? (value : Value) : Option DocumentSettings := do
  let record ← Record.ofValue? ["stylesheet"] value
  let standard : DocumentSettings := {}
  return {
    stylesheet := ← record.withDefault "stylesheet" standard.stylesheet
      (Value.nullable Value.toText?) }

/-- Writes the settings. -/
def toValue (settings : DocumentSettings) : Value :=
  .table [("stylesheet", .ofOption .string settings.stylesheet)]

end DocumentSettings

/-- All settings of a run. -/
structure Config where
  /-- How test bodies are translated. -/
  translator : Translator := {}
  /-- How the document is annotated. -/
  annotator : Annotator := {}
  /-- How the document is written. -/
  document : DocumentSettings := {}
deriving DecidableEq, Inhabited, Repr

namespace Config

/-- The names of the fields in their fixed order. -/
def fieldNames : List String :=
  ["translator", "annotator", "document"]

/-- Reads the settings. -/
def ofValue? (value : Value) : Option Config := do
  let record ← Record.ofValue? fieldNames value
  return {
    translator := ← record.withDefault "translator" {} Translator.ofValue?
    annotator := ← record.withDefault "annotator" {} Annotator.ofValue?
    document := ← record.withDefault "document" {} DocumentSettings.ofValue? }

/-- Writes the settings. -/
def toValue (config : Config) : Value :=
  .table [
    ("translator", config.translator.toValue),
    ("annotator", config.annotator.toValue),
    ("document", config.document.toValue)]

/-- A value without what an array holds beyond the fields of the record that it stands for. -/
def withoutSurplus (fieldCount : Nat) : Value → Value
  | .array elements => .array (elements.take fieldCount)
  | other => other

/-- Reads the settings in a configuration file. -/
def ofToml? (text : String) : Option Config := do
  match ← Toml.read? text.toList with
  | .table entries =>
      ofValue? (.table (entries.map fun (name, value) =>
        (name, withoutSurplus (if name = "document" then 1 else 3) value)))
  | _ => none

/-- What is found where the configuration file should be. -/
inductive Source where
  /-- There is no file. -/
  | missing
  /-- There is something else, or it cannot be read. -/
  | unreadable
  /-- There is a file. -/
  | file (content : ByteArray)

/-- The settings in the configuration file of that name.  Without a file all settings have their
defaults. -/
def load (name : String) : Source → Except Error Config
  | .missing => .ok {}
  | .unreadable => .error (.config name "not a file")
  | .file content =>
      match String.fromUTF8? content with
      | none => .error (.config name "not UTF-8")
      | some text =>
          match ofToml? text with
          | none => .error (.config name "not a configuration")
          | some config => .ok config

end Config

end Suite
end Conformance
