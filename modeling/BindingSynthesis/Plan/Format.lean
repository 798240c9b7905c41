import BindingSynthesis.Json.Basic
import BindingSynthesis.Json.Record
import BindingSynthesis.Overload
import BindingSynthesis.Plan.Basic

/-!
# BindingSynthesis.Plan.Format

The written form of plans and of their parts.

Records that name a wrapper or a binding write their field names in camel case;
signatures, shapes and the arguments of a skip reason write them in snake case.
Calls and imports carry the name of their case in a member `kind`; the level of
a wrapper and the reason of a skip are names, the latter with a record where it
has arguments.
-/

namespace BindingSynthesis

open Json

/-! ## Calls and imports -/

def Target.toJson : Target → Json
  | .library modulePath callable =>
    .object [("kind", .string "moduleCall"), ("module", .string modulePath),
      ("callable", .string callable)]
  | .aliased aliasName modulePath callable =>
    .object [("kind", .string "aliasedCall"), ("alias", .string aliasName),
      ("module", .string modulePath), ("callable", .string callable)]
  | .receiver method =>
    .object [("kind", .string "methodCall"), ("method", .string method)]

def Target.decode : Decoder Target :=
  .tagged [
    ("moduleCall", Fields.decode (
      Target.library <$> .required "module" .string <*> .required "callable" .string)),
    ("aliasedCall", Fields.decode (
      Target.aliased <$> .required "alias" .string <*> .required "module" .string
        <*> .required "callable" .string)),
    ("methodCall", Fields.decode (Target.receiver <$> .required "method" .string))]

def Import.toJson : Import → Json
  | .plain modulePath => .object [("kind", .string "module"), ("module", .string modulePath)]
  | .aliased aliasName modulePath =>
    .object [("kind", .string "alias"), ("alias", .string aliasName), ("module", .string modulePath)]

def Import.decode : Decoder Import :=
  .tagged [
    ("module", Fields.decode (Import.plain <$> .required "module" .string)),
    ("alias", Fields.decode (
      Import.aliased <$> .required "alias" .string <*> .required "module" .string))]

/-! ## Bindings -/

def WrapperKind.toJson : WrapperKind → Json
  | .libraryLevel => .string "module"
  | .classLevel => .string "class"

def WrapperKind.decode : Decoder WrapperKind :=
  .choice [("module", .bare .libraryLevel), ("class", .bare .classLevel)]

def Signature.toJson (s : Signature) : Json :=
  .object [("name", .string s.name), ("arity", .number s.arity), ("keyword_tail", .bool s.keywordTail)]

def Signature.fields : Fields Signature :=
  Signature.mk <$> .required "name" .string <*> .required "arity" .natural
    <*> .required "keyword_tail" .bool

def Shape.toJson (s : Shape) : Json :=
  .object [("arity", .number s.arity), ("keyword_tail", .bool s.keywordTail)]

def Shape.fields : Fields Shape :=
  Shape.mk <$> .required "arity" .natural <*> .required "keyword_tail" .bool

def Binding.toJson (b : Binding) : Json :=
  .object [
    ("ownerKind", b.ownerKind.toJson),
    ("ownerName", .string b.ownerName),
    ("bindingName", .string b.name),
    ("arity", .number b.arity),
    ("usesKeywordTail", .bool b.keywordTail),
    ("callTarget", b.target.toJson),
    ("requiresAlias", .bool b.requiresAlias),
    ("doc", .string b.doc)]

def Binding.fields : Fields Binding :=
  Binding.mk
    <$> .required "ownerKind" WrapperKind.decode
    <*> .required "ownerName" .string
    <*> .required "bindingName" .string
    <*> .required "arity" .natural
    <*> .required "usesKeywordTail" .bool
    <*> .required "callTarget" Target.decode
    <*> .required "requiresAlias" .bool
    <*> .required "doc" .string

/-! ## Wrappers -/

def Wrapper.toJson (w : Wrapper) : Json :=
  .object [
    ("kind", w.kind.toJson),
    ("name", .string w.name),
    ("foreignName", .string w.foreignName),
    ("module", .string w.modulePath),
    ("doc", .string w.doc),
    ("imports", .array (w.imports.map Import.toJson)),
    ("bindings", .array (w.bindings.map Binding.toJson))]

def Wrapper.fields : Fields Wrapper :=
  Wrapper.mk
    <$> .required "kind" WrapperKind.decode
    <*> .required "name" .string
    <*> .required "foreignName" .string
    <*> .required "module" .string
    <*> .required "doc" .string
    <*> .required "imports" (.list Import.decode)
    <*> .required "bindings" (.list Binding.fields.decode)

/-! ## Plans -/

def SkipReason.toJson : SkipReason → Json
  | .invalidName => .string "invalidName"
  | .constructor => .string "constructor"
  | .ownerCollision => .string "ownerCollision"
  | .duplicateSignature arity keywordTail =>
    .object [("duplicateSignature",
      .object [("arity", .number arity), ("keyword_tail", .bool keywordTail)])]

def SkipReason.decode : Decoder SkipReason :=
  .choice [
    ("invalidName", .bare .invalidName),
    ("constructor", .bare .constructor),
    ("ownerCollision", .bare .ownerCollision),
    ("duplicateSignature", .record (Fields.decode (
      SkipReason.duplicateSignature <$> .required "arity" .natural
        <*> .required "keyword_tail" .bool)))]

def Skip.toJson (s : Skip) : Json :=
  .object [("owner", .string s.owner), ("symbol", .string s.symbol), ("reason", s.reason.toJson)]

def Skip.fields : Fields Skip :=
  Skip.mk <$> .required "owner" .string <*> .required "symbol" .string
    <*> .required "reason" SkipReason.decode

def Plan.toJson (p : Plan) : Json :=
  .object [
    ("library", .string p.library),
    ("owners", .array (p.wrappers.map Wrapper.toJson)),
    ("skipped", .array (p.skipped.map Skip.toJson))]

def Plan.fields : Fields Plan :=
  Plan.mk
    <$> .required "library" .string
    <*> .required "owners" (.list Wrapper.fields.decode)
    <*> .required "skipped" (.list Skip.fields.decode)

/-- Reads a written plan. -/
def Plan.parse (text : String) : Except Fault Plan := Json.decode Plan.fields.decode text

end BindingSynthesis
