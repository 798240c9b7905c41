import BindingSynthesis.Json.Basic
import BindingSynthesis.Json.Record
import BindingSynthesis.Text.Replace

/-!
# BindingSynthesis.Options

What a user may choose: how plans are synthesized and which names the emitted
sources depend on.  Every option has a default, so nothing at all is a valid
choice.
-/

namespace BindingSynthesis

open Json

/-- How plans are synthesized. -/
structure SynthesisOptions where
  /-- Classes of a module whose path contains one of these are never wrapped. -/
  deniedModulePatterns : List String := [".interchange.", "._libs.", ".testing"]
  /-- What follows the library path in the path of its canonical module. -/
  canonicalModuleSuffix : String := ".core.frame"
  /-- Docs with more characters are cut. -/
  docMaxChars : Nat := 200
  /-- What distinguishes the name of an overload with a map of keywords. -/
  kwargsSuffix : String := "WithKwargs"
  /-- What the names of wrappers start with. -/
  ownerPrefix : String := "J"
  deriving DecidableEq, Repr

/-- The names that emitted sources depend on. -/
structure EmissionOptions where
  interpreterType : String := "jep.Interpreter"
  /-- An expression for the shared interpreter. -/
  interpreterAccessor : String := "wrapweld.runtime.Runtime.interpreter()"
  /-- The type of a map of keywords, with a method `py()` for the foreign map. -/
  keywordMapType : String := "wrapweld.runtime.PyDict"
  /-- The type that results of calls with keywords are fetched as. -/
  foreignObjectType : String := "jep.python.PyObject"
  /-- The plan is written next to the sources. -/
  writePlan : Bool := true
  deriving DecidableEq, Repr

namespace SynthesisOptions

/-- The path of the canonical module of a library. -/
def canonicalModule (o : SynthesisOptions) (library : String) : String :=
  library ++ o.canonicalModuleSuffix

/-- Classes of this module are never wrapped. -/
def isDenied (o : SynthesisOptions) (modulePath : String) : Bool :=
  o.deniedModulePatterns.any fun pattern => Text.contains modulePath pattern

/-- Written options. -/
def toJson (o : SynthesisOptions) : Json :=
  .object [
    ("denied_module_patterns", .array (o.deniedModulePatterns.map .string)),
    ("canonical_module_suffix", .string o.canonicalModuleSuffix),
    ("doc_max_chars", .number o.docMaxChars),
    ("kwargs_suffix", .string o.kwargsSuffix),
    ("owner_prefix", .string o.ownerPrefix)]

def fields : Fields SynthesisOptions :=
  let usual : SynthesisOptions := {}
  SynthesisOptions.mk
    <$> .withDefault "denied_module_patterns" (.list .string) usual.deniedModulePatterns
    <*> .withDefault "canonical_module_suffix" .string usual.canonicalModuleSuffix
    <*> .withDefault "doc_max_chars" .natural usual.docMaxChars
    <*> .withDefault "kwargs_suffix" .string usual.kwargsSuffix
    <*> .withDefault "owner_prefix" .string usual.ownerPrefix

end SynthesisOptions

namespace EmissionOptions

/-- Written options. -/
def toJson (o : EmissionOptions) : Json :=
  .object [
    ("interpreter_type", .string o.interpreterType),
    ("interpreter_accessor", .string o.interpreterAccessor),
    ("keyword_map_type", .string o.keywordMapType),
    ("foreign_object_type", .string o.foreignObjectType),
    ("write_plan", .bool o.writePlan)]

def fields : Fields EmissionOptions :=
  let usual : EmissionOptions := {}
  EmissionOptions.mk
    <$> .withDefault "interpreter_type" .string usual.interpreterType
    <*> .withDefault "interpreter_accessor" .string usual.interpreterAccessor
    <*> .withDefault "keyword_map_type" .string usual.keywordMapType
    <*> .withDefault "foreign_object_type" .string usual.foreignObjectType
    <*> .withDefault "write_plan" .bool usual.writePlan

end EmissionOptions

end BindingSynthesis
