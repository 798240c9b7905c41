import BindingSynthesis.Plan.Basic
import BindingSynthesis.Proofs.ForeignNames
import Mathlib.Data.List.Nodup
import Mathlib.Logic.Function.Basic

/-!
# BindingSynthesis.Proofs.ForeignCalls

The calls that the foreign side makes.

```
text         result = self.head(arg0, arg1, **py_kwargs)
variables    self ↦ x    arg0 ↦ v    arg1 ↦ w    py_kwargs ↦ m
call         head of x, with v and w and the keywords m
```

1. Variables that are set one after the other, under different names, have their
   values in the end (`have_setAll`).
2. The text of a call is a path and, in parentheses, names.  The path starts at a variable
   and goes on by attributes; a text with anything else in these places is refused
   (`readCall?`).  The call that is denoted starts at what the variable stands for, and has
   the values of the names (`denoted?`); there is none where a variable is not set.
3. So the foreign call of a binding denotes the call with its arguments, if its path is
   read (`denoted?_foreignCall`).
4. A program drives the foreign side by actions; what it runs is a call whose result is
   assigned (`State.perform`).
-/

namespace BindingSynthesis.Foreign

open Text

variable {α : Type}

/-! ## variables -/

/-- The values of the variables that have one. -/
abbrev Variables (α : Type) := String → Option α

/-- Variables that are set one after the other. -/
def setAll (vars : Variables α) (xs : List (String × α)) : Variables α :=
  xs.foldl (fun vars x => Function.update vars x.1 (some x.2)) vars

/-- A variable that is not among those set keeps its value. -/
theorem setAll_of_not_mem {name : String} {xs : List (String × α)} (h : name ∉ xs.map Prod.fst)
    (vars : Variables α) : setAll vars xs name = vars name := by
  induction xs generalizing vars with
  | nil => rfl
  | cons x xs ih =>
      rw [List.map_cons, List.mem_cons, not_or] at h
      rw [setAll, List.foldl_cons]
      exact (ih h.2 _).trans (Function.update_of_ne h.1 _ _)

/-- Assignments in a row are made one after the other. -/
theorem setAll_append (vars : Variables α) (xs ys : List (String × α)) :
    setAll vars (xs ++ ys) = setAll (setAll vars xs) ys := List.foldl_append

/-- The variables of these names have these values. -/
def Variables.Have (vars : Variables α) (names : List String) (values : List α) : Prop :=
  List.Forall₂ (fun name value => vars name = some value) names values

/-- Only the values of the listed names matter. -/
theorem Variables.Have.congr {vars vars' : Variables α} {names : List String} {values : List α}
    (h : vars.Have names values) (heq : ∀ name ∈ names, vars' name = vars name) :
    vars'.Have names values := by
  induction h with
  | nil => exact .nil
  | cons hvalue _ ih =>
      rw [List.forall_mem_cons] at heq
      exact .cons (heq.1.trans hvalue) (ih heq.2)

/-- **Variables of different names keep their values**. -/
theorem have_setAll {names : List String} {values : List α} (hnames : names.Nodup)
    (hlength : names.length = values.length) (vars : Variables α) :
    (setAll vars (names.zip values)).Have names values := by
  induction names generalizing values vars with
  | nil =>
      rw [List.eq_nil_of_length_eq_zero hlength.symm]
      exact .nil
  | cons name names ih =>
      cases values with
      | nil => cases hlength
      | cons value values =>
          rw [List.nodup_cons] at hnames
          have hlength : names.length = values.length := Nat.succ.inj hlength
          have hfirst : name ∉ (names.zip values).map Prod.fst := by
            rw [List.map_fst_zip (Nat.le_of_eq hlength)]
            exact hnames.1
          refine .cons ?_ (ih hnames.2 hlength _)
          exact (setAll_of_not_mem hfirst _).trans (Function.update_self _ _ _)

/-! ## the text of a call -/

/-- An argument in the text of a call. -/
inductive Arg where
  | positional (name : String)
  | keywords (name : String)
  deriving DecidableEq

/-- The text of a call. -/
structure CallText where
  /-- A variable, and the attributes that lead on from it. -/
  names : List String
  args : List Arg
  deriving DecidableEq

section

variable (a : Alphabet)

/-- Reads an argument of a call. -/
def readArg? : List Char → Option Arg
  | '*' :: '*' :: cs => (a.name? cs).map .keywords
  | cs => (a.name? cs).map .positional

/-- Reads what stands in the parentheses of a call. -/
def readArgs? (cs : List Char) : Option (List Arg) :=
  if cs = [] then some []
  else (segments ',' cs).mapM fun arg => readArg? a (arg.dropWhile (· == ' '))

/-- Reads a call of a path, with names in its parentheses, which are the last ones. -/
def readCall? (cs : List Char) : Option CallText :=
  match cs.reverse with
  | ')' :: back => match back.dropWhile (· != '(') with
    | '(' :: path => do
      let names ← a.path? path.reverse
      let args ← readArgs? a (back.takeWhile (· != '(')).reverse
      pure ⟨names, args⟩
    | _ => none
  | _ => none

/-- Reads a call whose result is assigned to a variable. -/
def readAssignment? (cs : List Char) : Option (String × CallText) :=
  match cs.dropWhile (· != ' ') with
  | ' ' :: '=' :: ' ' :: call => do
    let target ← a.name? (cs.takeWhile (· != ' '))
    let c ← readCall? a call
    pure (target, c)
  | _ => none

end

/-! ## calls -/

/-- A call of the foreign side. -/
structure Call (α : Type) where
  /-- A variable, and the attributes that lead on from it to what is called. -/
  names : List String
  /-- What the variable stands for. -/
  start : α
  positional : List α
  keywords : Option α := none

/-- What the first of these names stands for. -/
def startOf (vars : Variables α) (names : List String) : Option α := names.head?.bind vars

/-- The values of arguments; keywords come last. -/
def valuesOf? (vars : Variables α) : List Arg → Option (List α × Option α)
  | [] => some ([], none)
  | [.keywords name] => (vars name).map fun v => ([], some v)
  | .positional name :: more => do
    let v ← vars name
    let (vs, keywords) ← valuesOf? vars more
    pure (v :: vs, keywords)
  | .keywords _ :: _ => none

/-- The call that a text stands for.  There is none if a variable in it is not set. -/
def CallText.call? (c : CallText) (vars : Variables α) : Option (Call α) := do
  let start ← startOf vars c.names
  let (positional, keywords) ← valuesOf? vars c.args
  pure ⟨c.names, start, positional, keywords⟩

/-- The call that a text denotes among variables. -/
def denoted? (a : Alphabet) (vars : Variables α) (text : String) : Option (Call α) :=
  (readCall? a text.toList).bind fun c => c.call? vars

/-! ## reading what is written -/

/-- The text of an argument. -/
def Arg.source : Arg → String
  | .positional name => name
  | .keywords name => "**" ++ name

def Arg.name : Arg → String
  | .positional name | .keywords name => name

section

variable {a : Alphabet}

/-- In the text of an argument, only its name and stars occur. -/
theorem not_mem_source {arg : Arg} (h : a.IsName arg.name) {c : Char} (hascii : isAscii c = true)
    (hstar : c ≠ '*') (hword : HostName.isWordChar c = false) : c ∉ arg.source.toList := by
  have hname : c ∉ arg.name.toList := Alphabet.not_mem_of_name? h hascii hword
  cases arg with
  | positional name => exact hname
  | keywords name =>
      rw [Arg.source, String.toList_append, List.mem_append, not_or]
      exact ⟨by simp [hstar], hname⟩

/-- The text of an argument is read back. -/
theorem readArg?_source {arg : Arg} (h : a.IsName arg.name) :
    readArg? a (arg.source.toList.dropWhile (· == ' ')) = some arg := by
  cases arg with
  | positional name =>
      have hname : a.name? name.toList = some name := h
      have hblank := Alphabet.not_mem_of_name? hname (c := ' ') (by decide) (by decide)
      have hstar := Alphabet.not_mem_of_name? hname (c := '*') (by decide) (by decide)
      rw [Arg.source]
      cases hcs : name.toList with
      | nil =>
          rw [hcs] at hname
          cases hname
      | cons c cs =>
          rw [hcs] at hname hblank hstar
          simp only [List.mem_cons, not_or] at hblank hstar
          rw [List.dropWhile_cons_of_neg (by simpa using Ne.symm hblank.1), readArg?, hname]
          · rfl
          · intro rest hrest
            exact hstar.1 (List.cons.inj hrest).1.symm
  | keywords name =>
      have hname : a.name? name.toList = some name := h
      rw [Arg.source, String.toList_append]
      change (a.name? name.toList).map Arg.keywords = _
      rw [hname]
      rfl

/-- A blank in front of the arguments is dropped. -/
theorem mapM_segments_space (cs : List Char) :
    (segments ',' (' ' :: cs)).mapM (fun arg => readArg? a (arg.dropWhile (· == ' '))) =
      (segments ',' cs).mapM fun arg => readArg? a (arg.dropWhile (· == ' ')) := by
  rw [segments, if_neg (by decide)]
  obtain ⟨piece, more, hcs⟩ := List.exists_cons_of_ne_nil (segments_ne_nil ',' cs)
  rw [hcs]
  rfl

/-- A character of joined texts is one of theirs or of what joins them. -/
theorem mem_joined {sep : String} {c : Char} {xs : List String}
    (h : c ∈ (Text.joined sep xs).toList) : c ∈ sep.toList ∨ ∃ x ∈ xs, c ∈ x.toList := by
  induction xs with
  | nil => simp at h
  | cons x xs ih =>
      cases xs with
      | nil => exact .inr ⟨x, List.mem_cons_self, h⟩
      | cons y xs =>
          rw [Text.joined_cons_cons, String.toList_append, String.toList_append, List.mem_append,
            List.mem_append] at h
          obtain (h | h) | h := h
          · exact .inr ⟨x, List.mem_cons_self, h⟩
          · exact .inl h
          · exact (ih h).imp_right fun ⟨z, hz, hc⟩ => ⟨z, List.mem_cons_of_mem _ hz, hc⟩

/-- The text between the parentheses of a call is read back. -/
theorem readArgs?_joined {args : List Arg} (h : ∀ arg ∈ args, a.IsName arg.name) :
    readArgs? a (Text.joined ", " (args.map Arg.source)).toList = some args := by
  have hmapM (arg : Arg) (more : List Arg) (h : ∀ arg' ∈ arg :: more, a.IsName arg'.name) :
      (segments ',' (Text.joined ", " ((arg :: more).map Arg.source)).toList).mapM
        (fun arg => readArg? a (arg.dropWhile (· == ' '))) = some (arg :: more) := by
    induction more generalizing arg with
    | nil =>
        rw [List.forall_mem_cons] at h
        have hcomma := not_mem_source h.1 (c := ',') (by decide) (by decide) (by decide)
        rw [List.map_singleton, Text.joined_singleton, segments_of_not_mem hcomma, List.mapM_cons,
          readArg?_source h.1]
        rfl
    | cons next more ih =>
        rw [List.forall_mem_cons] at h
        have hcomma := not_mem_source h.1 (c := ',') (by decide) (by decide) (by decide)
        have htext : (Text.joined ", " ((arg :: next :: more).map Arg.source)).toList =
            arg.source.toList ++ ',' ::
              ' ' :: (Text.joined ", " ((next :: more).map Arg.source)).toList := by
          simp
        rw [htext, segments_append_separator, segments_of_not_mem hcomma, List.singleton_append,
          List.mapM_cons, readArg?_source h.1, mapM_segments_space, ih next h.2]
        rfl
  cases args with
  | nil => rfl
  | cons arg more =>
      have hne : (Text.joined ", " ((arg :: more).map Arg.source)).toList ≠ [] := fun hnil => by
        have hread := hmapM arg more h
        rw [hnil] at hread
        cases hread
      rw [readArgs?, if_neg hne, hmapM arg more h]

/-- **The text of a call is read back** if its path is read, and else it is refused. -/
theorem readCall?_source (path : String) {args : List Arg} (h : ∀ arg ∈ args, a.IsName arg.name) :
    readCall? a (path ++ "(" ++ Text.joined ", " (args.map Arg.source) ++ ")").toList =
      (a.path? path.toList).map (⟨·, args⟩) := by
  have hinner : ∀ c ∈ (Text.joined ", " (args.map Arg.source)).toList.reverse,
      (c != '(') = true := by
    intro c hc
    rw [bne_iff_ne]
    rintro rfl
    obtain hc | ⟨source, hsource, hc⟩ := mem_joined (List.mem_reverse.mp hc)
    · exact absurd hc (by decide)
    · obtain ⟨arg, harg, rfl⟩ := List.mem_map.mp hsource
      exact not_mem_source (h arg harg) (by decide) (by decide) (by decide) hc
  have htext : (path ++ "(" ++ Text.joined ", " (args.map Arg.source) ++ ")").toList.reverse =
      ')' :: ((Text.joined ", " (args.map Arg.source)).toList.reverse ++
        '(' :: path.toList.reverse) := by
    simp
  rw [readCall?, htext]
  simp only
  rw [List.dropWhile_append_of_pos hinner, List.takeWhile_append_of_pos hinner,
    List.dropWhile_cons_of_neg (by simp), List.takeWhile_cons_of_neg (by simp), List.append_nil]
  simp only
  rw [List.reverse_reverse, List.reverse_reverse, readArgs?_joined h]
  cases a.path? path.toList <;> rfl

end

/-! ## foreign calls of bindings -/

/-- The names on the path that a binding calls. -/
def namesOf (b : Binding) : List String := segmentsOf '.' b.target.path

/-- The call that a binding stands for, among variables.  There is none if its path starts at
a variable that is not set. -/
def callOf? (b : Binding) (vars : Variables α) (args : List α) (kwargs : α) : Option (Call α) :=
  (startOf vars (namesOf b)).map fun start =>
    ⟨namesOf b, start, args, if b.keywordTail then some kwargs else none⟩

/-- The arguments in the foreign call of a binding. -/
def argsOf (b : Binding) (kwargsName : String) : List Arg :=
  b.positionalArgs.map .positional ++ if b.keywordTail then [.keywords kwargsName] else []

/-- The name of a parameter. -/
def argName (i : Nat) : String := "arg" ++ toString i

theorem positionalArgs_eq (b : Binding) : b.positionalArgs = (List.range b.arity).map argName := rfl

/-- Different positions have different names. -/
theorem argName_injective : Function.Injective argName := by
  intro i j h
  have hdigits : Nat.toDigits 10 i = Nat.toDigits 10 j := by
    simpa [argName, Nat.toList_repr] using congrArg String.toList h
  rw [← Nat.ofDigitChars_ten_toDigits (n := i), hdigits, Nat.ofDigitChars_ten_toDigits]

/-- So no positional variable is set twice. -/
theorem nodup_positionalArgs (b : Binding) : b.positionalArgs.Nodup :=
  List.Nodup.map argName_injective List.nodup_range

/-- The letters and digits of these names are ASCII. -/
theorem isWordChar_of_mem_argName {i : Nat} {c : Char} (h : c ∈ (argName i).toList) :
    HostName.isWordChar c = true := by
  rw [argName, String.toList_append, List.mem_append] at h
  obtain h | h := h
  · have hword : "arg".toList.all HostName.isWordChar = true := by decide
    exact List.all_eq_true.mp hword c h
  · rw [Nat.toString_eq_repr, Nat.toList_repr] at h
    have hdigit := Nat.isDigit_of_mem_toDigits (by decide) (by decide) h
    have hdigit : isDigit c = true := by
      simpa [Char.isDigit, isDigit, Char.le_def] using hdigit
    simp [HostName.isWordChar, hdigit]

/-- Hence they are names under every alphabet, and no keyword is among them. -/
theorem isName_argName (a : Alphabet) (i : Nat) : a.IsName (argName i) := by
  have hname : (argName i).toList = 'a' :: ('r' :: 'g' :: (toString i).toList) := by
    simp [argName]
  refine Alphabet.isName_of_isWordChar hname (.inl (by decide)) ?_ fun hkeyword => ?_
  · rw [List.all_eq_true]
    intro d hd
    refine isWordChar_of_mem_argName (i := i) ?_
    rw [hname]
    exact List.mem_cons_of_mem _ hd
  · have hother : ∀ keyword ∈ keywords, ¬"arg".toList <+: keyword.toList := by decide
    refine hother _ hkeyword ?_
    rw [argName, String.toList_append]
    exact List.prefix_append _ _

/-- No parameter is named like a word that starts otherwise. -/
theorem not_mem_positionalArgs {name : String} (h : ¬"arg".toList <+: name.toList) (b : Binding) :
    name ∉ b.positionalArgs := by
  rw [positionalArgs_eq, List.mem_map]
  rintro ⟨i, -, rfl⟩
  rw [argName, String.toList_append] at h
  exact h (List.prefix_append _ _)

/-- Leading variables of an argument list give their values, in order. -/
theorem valuesOf?_positional {vars : Variables α} {names : List String} {values : List α}
    (h : vars.Have names values) (rest : List Arg) :
    valuesOf? vars (names.map .positional ++ rest) =
      (valuesOf? vars rest).map fun (more, keywords) => (values ++ more, keywords) := by
  induction h with
  | nil => simp
  | cons hvalue _ ih =>
      rw [List.map_cons, List.cons_append, valuesOf?, hvalue, ih]
      cases valuesOf? vars rest <;> rfl

/-- **The foreign call of a binding** denotes a call among variables that have the arguments
as values: its path is read, and what its first name stands for is looked up. -/
theorem denoted?_foreignCall_eq (a : Alphabet) (b : Binding) {kwargsName : String}
    (hname : a.IsName kwargsName) {vars : Variables α} {args : List α} {kwargs : α}
    (hargs : vars.Have b.positionalArgs args)
    (hkwargs : b.keywordTail = true → vars kwargsName = some kwargs) :
    denoted? a vars (b.foreignCall kwargsName) =
      (a.path? b.target.path.toList).bind fun names => (startOf vars names).map fun start =>
        ⟨names, start, args, if b.keywordTail then some kwargs else none⟩ := by
  have htext : b.foreignCall kwargsName =
      b.target.path ++ "(" ++ Text.joined ", " ((argsOf b kwargsName).map Arg.source) ++ ")" := by
    have hpositional : (b.positionalArgs.map Arg.positional).map Arg.source = b.positionalArgs := by
      rw [List.map_map]
      exact List.map_id _
    rw [Binding.foreignCall, argsOf, List.map_append, hpositional]
    cases b.keywordTail <;> rfl
  have hnames : ∀ arg ∈ argsOf b kwargsName, a.IsName arg.name := by
    intro arg harg
    rw [argsOf, positionalArgs_eq, List.mem_append, List.map_map, List.mem_map] at harg
    obtain ⟨i, -, rfl⟩ | harg := harg
    · exact isName_argName a i
    · cases htail : b.keywordTail with
      | false => simp [htail] at harg
      | true =>
          simp only [htail, if_true, List.mem_singleton] at harg
          rwa [harg]
  have hvalues : valuesOf? vars (argsOf b kwargsName) =
      some (args, if b.keywordTail then some kwargs else none) := by
    rw [argsOf, valuesOf?_positional hargs]
    cases htail : b.keywordTail with
    | false => simp [valuesOf?]
    | true => simp [valuesOf?, hkwargs htail]
  rw [denoted?, htext, readCall?_source _ hnames]
  cases a.path? b.target.path.toList with
  | none => rfl
  | some names =>
      rw [Option.map_some, Option.bind_some, Option.bind_some, CallText.call?, hvalues]
      cases startOf vars names <;> rfl

/-- **The foreign call of a binding denotes the call that it stands for**, if the names on
its path are names of the foreign language. -/
theorem denoted?_foreignCall {a : Alphabet} {b : Binding} {kwargsName : String}
    (hname : a.IsName kwargsName) (hpath : ∀ name ∈ namesOf b, a.IsName name)
    {vars : Variables α} {args : List α} {kwargs : α} (hargs : vars.Have b.positionalArgs args)
    (hkwargs : b.keywordTail = true → vars kwargsName = some kwargs) :
    denoted? a vars (b.foreignCall kwargsName) = callOf? b vars args kwargs := by
  rw [denoted?_foreignCall_eq a b hname hargs hkwargs, Alphabet.path?_eq_segmentsOf_iff.mpr hpath,
    Option.bind_some]
  rfl

/-! ## methods of the wrapped object -/

/-- The path of a method has two pieces, the variable `self` and the name of the method. -/
theorem segments_path_receiver {method : String} (hmethod : '.' ∉ method.toList) :
    segments '.' (Target.receiver method).path.toList = ["self".toList, method.toList] := by
  have hpath : (Target.receiver method).path.toList = "self".toList ++ '.' :: method.toList := by
    simp [Target.path]
  rw [hpath, segments_append_separator, segments_of_not_mem hmethod,
    segments_of_not_mem (by decide)]
  rfl

/-- A method is an attribute of the variable `self`. -/
theorem namesOf_receiver {b : Binding} {method : String} (htarget : b.target = .receiver method)
    (hmethod : '.' ∉ method.toList) : namesOf b = ["self", method] := by
  rw [namesOf, htarget, segmentsOf, segments_path_receiver hmethod]
  simp

/-- The path of a method is read if its name is. -/
theorem path?_receiver (a : Alphabet) {method : String} (hmethod : '.' ∉ method.toList) :
    a.path? (Target.receiver method).path.toList =
      (a.name? method.toList).map fun name => ["self", name] := by
  have hself : a.name? "self".toList = some "self" :=
    Alphabet.isName_of_isWordChar (c := 's') rfl (.inl (by decide)) (by decide) (by decide)
  rw [Alphabet.path?, segments_path_receiver hmethod, List.mapM_cons, hself, List.mapM_cons]
  cases a.name? method.toList <;> rfl

/-! ## actions -/

/-- A call that was made, and the variables among which it was made. -/
structure Made (α : Type) where
  call : Call α
  vars : Variables α

/-- A foreign side: its alphabet, what import statements do to its variables, and what calls
give. -/
structure World (α : Type) where
  alphabet : Alphabet
  imported : Variables α → Variables α
  result : Made α → α

/-- The variables, and the calls that were made so far. -/
structure State (α : Type) where
  vars : Variables α
  made : List (Made α)

/-- What a program asks of the foreign side. -/
inductive Action (α : Type) where
  /-- Runs the import statements of a wrapper. -/
  | imports
  | set (name : String) (value : α)
  /-- Runs a text that assigns the result of a call. -/
  | exec (text : String)
  | invoke (path : String) (args : List α)
  | fetch (name : String)

namespace State

/-- Makes a call. -/
def make (s : State α) (c : Call α) : Made α := ⟨c, s.vars⟩

/-- Does what is asked, and gives a value where one is asked for.  A text that is refused ends
the program, and so does a variable that is not set. -/
def perform (w : World α) (s : State α) : Action α → Option (Option α × State α)
  | .imports => some (none, { s with vars := w.imported s.vars })
  | .set name value => some (none, { s with vars := Function.update s.vars name (some value) })
  | .exec text => do
    let (target, c) ← readAssignment? w.alphabet text.toList
    let made := s.make (← c.call? s.vars)
    some (none, ⟨Function.update s.vars target (some (w.result made)), s.made ++ [made]⟩)
  | .invoke path args => do
    let names := segmentsOf '.' path
    let start ← startOf s.vars names
    let made := s.make { names, start, positional := args }
    some (some (w.result made), { s with made := s.made ++ [made] })
  | .fetch name => (s.vars name).map fun value => (some value, s)

/-- Does one thing after the other, and gives the value of the last. -/
def performAll (w : World α) (s : State α) (actions : List (Action α)) :
    Option (Option α × State α) :=
  actions.foldlM (fun done action => done.2.perform w action) (none, s)

end State

/-- A variable that was set last is fetched. -/
theorem perform_fetch (w : World α) (vars : Variables α) (name : String) (value : α)
    (made : List (Made α)) :
    State.perform w ⟨Function.update vars name (some value), made⟩ (.fetch name) =
      some (some value, ⟨Function.update vars name (some value), made⟩) := by
  change (Function.update vars name (some value) name).map _ = _
  rw [Function.update_self]
  rfl

/-- A row of assignments yields no result and sets the variables. -/
theorem foldlM_perform_set (w : World α) (xs : List (String × α)) (s : State α) :
    (xs.map fun x => Action.set x.1 x.2).foldlM (fun done action => done.2.perform w action)
      (none, s) = some (none, { s with vars := setAll s.vars xs }) := by
  induction xs generalizing s with
  | nil => rfl
  | cons x xs ih => exact ih _

/-- What is run for a binding with a map of keywords assigns to `result`. -/
theorem readAssignment?_result (a : Alphabet) (call : String) :
    readAssignment? a ("result = " ++ call).toList = (readCall? a call.toList).map ("result", ·) := by
  have hresult : a.name? "result".toList = some "result" :=
    Alphabet.isName_of_isWordChar (c := 'r') rfl (.inl (by decide)) (by decide) (by decide)
  rw [String.toList_append]
  change (a.name? "result".toList).bind (fun target =>
    (readCall? a call.toList).bind fun c => some (target, c)) = _
  rw [hresult, Option.map_eq_bind]
  rfl

/-- **Running an assignment** makes the call that its text denotes, if there is one. -/
theorem perform_exec (w : World α) (s : State α) (call : String) :
    s.perform w (.exec ("result = " ++ call)) =
      (denoted? w.alphabet s.vars call).map fun c =>
        (none, ⟨Function.update s.vars "result" (some (w.result (s.make c))),
          s.made ++ [s.make c]⟩) := by
  rw [State.perform, readAssignment?_result, denoted?]
  cases readCall? w.alphabet call.toList with
  | none => rfl
  | some c =>
      rw [Option.bind_some]
      cases hcall : c.call? s.vars <;> simp [hcall]

end BindingSynthesis.Foreign
