import BindingSynthesis.Java.Literal
import BindingSynthesis.Text.Lines

/-!
# BindingSynthesis.Java.Source

The part of Java source that wrappers need, and its layout.

1. A compilation unit is a line comment, a package declaration, and one public
   class under a block comment.
2. The members of the class are fields, constructors and methods, with a blank
   line in front of each.
3. A block comment gives each line of its text a line of its own, behind a star.
-/

namespace BindingSynthesis.Java

/-! ## Comments -/

/-- The lines of a block comment, each with its line end. -/
def commentLines (indent : String) (text : String) : List String :=
  (indent ++ "/**\n") ::
    ((Text.linesOf text).map fun line =>
      if line = "" then indent ++ " *\n" else indent ++ " * " ++ line ++ "\n") ++
    [indent ++ " */\n"]

/-- A block comment. -/
def blockComment (indent : String) (text : String) : String := String.join (commentLines indent text)

/-! ## Expressions and statements -/

/-- An expression. -/
inductive Expr where
  /-- A name, or another expression that is written as it stands. -/
  | verbatim (source : String)
  /-- A string literal with this text. -/
  | text (s : String)
  /-- A call of a function or method. -/
  | call (function : String) (args : List Expr)

mutual

/-- The source of an expression. -/
def Expr.source : Expr → String
  | .verbatim source => source
  | .text s => literal s
  | .call function args => function ++ "(" ++ Expr.sources args ++ ")"
termination_by structural e => e

/-- The source of the arguments of a call. -/
def Expr.sources : List Expr → String
  | [] => ""
  | [e] => e.source
  | e :: more => e.source ++ ", " ++ Expr.sources more
termination_by structural es => es

end

/-- A statement. -/
inductive Statement where
  /-- Declares a local variable. -/
  | declare (type name : String) (value : Expr)
  /-- Assigns to a variable or field. -/
  | assign (place : String) (value : Expr)
  /-- Evaluates an expression for its effect. -/
  | run (e : Expr)
  | give (e : Expr)

/-- The source of a statement, without indentation. -/
def Statement.source : Statement → String
  | .declare type name value => type ++ " " ++ name ++ " = " ++ value.source ++ ";"
  | .assign place value => place ++ " = " ++ value.source ++ ";"
  | .run e => e.source ++ ";"
  | .give e => "return " ++ e.source ++ ";"

/-! ## Members -/

/-- A parameter of a method. -/
structure Param where
  type : String
  name : String
  deriving DecidableEq

/-- A method, or a constructor if it has no result type. -/
structure Method where
  /-- The text of the block comment in front; empty for none. -/
  comment : String := ""
  modifiers : String
  result? : Option String
  name : String
  params : List Param
  body : List Statement

/-- A member of a class. -/
inductive Member where
  | field (modifiers type name : String)
  | method (m : Method)

/-- The source of a parameter. -/
def Param.source (p : Param) : String := p.type ++ " " ++ p.name

/-- The source of a method. -/
def Method.source (m : Method) : String :=
  let comment := if m.comment = "" then "" else blockComment "  " m.comment
  let result := match m.result? with
    | none => ""
    | some type => type ++ " "
  comment ++ "  " ++ m.modifiers ++ " " ++ result ++ m.name ++
    "(" ++ Text.joined ", " (m.params.map Param.source) ++ ") \x7b\n" ++
    String.join (m.body.map fun s => "    " ++ s.source ++ "\n") ++ "  \x7d\n"

/-- The source of a member. -/
def Member.source : Member → String
  | .field modifiers type name => "  " ++ modifiers ++ " " ++ type ++ " " ++ name ++ ";\n"
  | .method m => m.source

/-! ## Compilation units -/

/-- A compilation unit with one public class. -/
structure CompilationUnit where
  /-- The text of the line comment at the top. -/
  origin : String
  package : String
  /-- The text of the block comment of the class. -/
  comment : String
  name : String
  members : List Member

namespace CompilationUnit

/-- The name of the file that holds the unit. -/
def fileName (u : CompilationUnit) : String := u.name ++ ".java"

/-- The methods of the class, constructors among them. -/
def methods (u : CompilationUnit) : List Method :=
  u.members.filterMap fun
    | .method m => some m
    | .field .. => none

/-- The source of the unit. -/
def source (u : CompilationUnit) : String :=
  "// " ++ u.origin ++ "\n" ++ "package " ++ u.package ++ ";\n\n" ++
    blockComment "" u.comment ++ "public class " ++ u.name ++ " \x7b\n" ++
    String.join (u.members.map fun m => "\n" ++ m.source) ++ "\x7d\n"

end CompilationUnit

end BindingSynthesis.Java
