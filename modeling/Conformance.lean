import Conformance.Suite
import Conformance.Proofs.CrossReference.Stripping
import Conformance.Proofs.CrossReference.Interference
import Conformance.Proofs.CrossReference.Parallel
import Conformance.Proofs.CrossReference.Persistence
import Conformance.Proofs.Prose.Expression
import Conformance.Proofs.Prose.Preference
import Conformance.Proofs.Prose.Compilation
import Conformance.Proofs.Translator.Dialects
import Conformance.Proofs.CrossReference.Order
import Conformance.Proofs.CrossReference.Noninterference
import Conformance.Proofs.Coverage
import Conformance.Proofs.Suite.Compilation
import Conformance.Proofs.Markup.Elements
import Conformance.Proofs.CrossReference.Uniqueness
import Conformance.Proofs.Markup.Preparation
import Conformance.Proofs.Suite.Cleanness
import Conformance.Proofs.Markup.Escaping
import Conformance.Proofs.Markup.Tags
import Conformance.Proofs.Markup.Roundtrip
import Conformance.Proofs.Markup.Building
import Conformance.Proofs.Boundary.Enumeration
import Conformance.Proofs.Suite.Endings
import Conformance.Proofs.Translator.Failing
import Conformance.Proofs.Translator.Recognition
import Conformance.Proofs.Message.Stages
import Conformance.Proofs.Message.Literals
import Conformance.Proofs.CrossReference.Landing
import Conformance.Proofs.CrossReference.Divisions
import Conformance.Proofs.CrossReference.Enclosure
import Conformance.Proofs.CrossReference.Indexing
import Conformance.Proofs.Boundary.Arguments
import Conformance.Proofs.Coverage.History
import Conformance.Proofs.Translator.Origin
import Conformance.Proofs.Suite.TransparentPixels
import Conformance.Proofs.Markup.Outside
import Conformance.Proofs.Prose.Markers
import Conformance.Proofs.CrossReference.InPlace
import Conformance.Proofs.Directive.Rules
