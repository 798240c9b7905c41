import BindingSynthesis.Library.Basic
import BindingSynthesis.Json.Basic
import BindingSynthesis.Json.Record
import BindingSynthesis.Text.Blank

/-!
# BindingSynthesis.Library.Document

The metadata document of a library, as an extractor writes it, and the library
that a valid document describes.

1. A document with an error reports that the extraction failed, whatever else
   it holds.
2. A document without a library name, or with a blank one, is refused.
3. In the library a function without a module belongs to the library itself, a
   method without a module to the module of its class, and no callable has more
   optional parameters than parameters.
-/

namespace BindingSynthesis

/-- A metadata document. -/
structure MetadataDocument where
  library : Option String
  /-- Why the extraction failed, if it did. -/
  error : Option String
  functions : List Callable
  classes : List ForeignClass
  deriving DecidableEq, Repr

/-- Why a metadata document describes no library. -/
inductive DocumentError where
  | missingName
  | extractor (library message : String)
  | malformed (fault : Json.Fault)
  deriving DecidableEq, Repr

/-- The wording of a document error. -/
def DocumentError.message : DocumentError → String
  | .missingName => "library descriptor has no name"
  | .extractor library message => "extractor failed for " ++ library ++ ": " ++ message
  | .malformed fault => "malformed metadata document: " ++ fault.message

/-! ## Written forms -/

open Json

/-- A value or `null`. -/
def Json.ofOption : Option String → Json
  | none => .null
  | some s => .string s

/-- An array of strings. -/
def Json.ofStrings (ss : List String) : Json := .array (ss.map .string)

/-- A written callable. -/
def Callable.toJson (c : Callable) : Json :=
  .object [
    ("name", .string c.name),
    ("args", .ofStrings c.params),
    ("optionalCount", .number c.optionalCount),
    ("doc", .ofOption c.doc),
    ("module", .string c.modulePath)]

/-- The fields of a callable; the parameters go by either of two names. -/
def Callable.fields : Fields Callable :=
  Callable.mk
    <$> .withDefault "name" .nullableString ""
    <*> .single ["args", "params"] (.list .string) (some []) (some [])
    <*> .withDefault "optionalCount" .natural 0
    <*> .withDefault "doc" (.option .string) none
    <*> .withDefault "module" .nullableString ""

/-- A written class. -/
def ForeignClass.toJson (c : ForeignClass) : Json :=
  .object [
    ("name", .string c.name),
    ("module", .string c.modulePath),
    ("doc", .ofOption c.doc),
    ("methods", .array (c.methods.map Callable.toJson))]

def ForeignClass.fields : Fields ForeignClass :=
  ForeignClass.mk
    <$> .withDefault "name" .nullableString ""
    <*> .withDefault "module" .nullableString ""
    <*> .withDefault "doc" (.option .string) none
    <*> .withDefault "methods" (.list Callable.fields.decode) []

/-- A written library. -/
def Library.toJson (l : Library) : Json :=
  .object [
    ("library", .string l.name),
    ("functions", .array (l.functions.map Callable.toJson)),
    ("classes", .array (l.classes.map ForeignClass.toJson))]

def Library.fields : Fields Library :=
  Library.mk
    <$> .required "library" .string
    <*> .required "functions" (.list Callable.fields.decode)
    <*> .required "classes" (.list ForeignClass.fields.decode)

/-- A written document; the error is left out when there is none. -/
def MetadataDocument.toJson (d : MetadataDocument) : Json :=
  .object (
    [("library", .ofOption d.library)] ++
    (match d.error with
      | none => []
      | some message => [("error", .string message)]) ++
    [("functions", .array (d.functions.map Callable.toJson)),
     ("classes", .array (d.classes.map ForeignClass.toJson))])

def MetadataDocument.fields : Fields MetadataDocument :=
  MetadataDocument.mk
    <$> .withDefault "library" (.option .string) none
    <*> .withDefault "error" (.option .string) none
    <*> .withDefault "functions" (.list Callable.fields.decode) []
    <*> .withDefault "classes" (.list ForeignClass.fields.decode) []

/-- Reads a metadata document. -/
def MetadataDocument.parse (text : String) : Except Fault MetadataDocument :=
  Json.decode MetadataDocument.fields.decode text

/-! ## Validation -/

/-- The library that a document describes. -/
def Library.ofDocument (d : MetadataDocument) : Except DocumentError Library :=
  match d.error, d.library with
  | some message, name? => .error (.extractor (name?.getD "") message)
  | none, none => .error .missingName
  | none, some name =>
    if Text.isBlank name then .error .missingName
    else .ok {
      name := name
      functions := d.functions.map fun f => (f.inModule name).clamped
      classes := d.classes.map ForeignClass.normalized }

/-- The library that a written document describes. -/
def Library.parse (text : String) : Except DocumentError Library :=
  match MetadataDocument.parse text with
  | .error fault => .error (.malformed fault)
  | .ok d => ofDocument d

end BindingSynthesis
