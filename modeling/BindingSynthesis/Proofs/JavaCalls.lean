import BindingSynthesis.Proofs.DeclaredNames
import BindingSynthesis.Proofs.JavaReading
import BindingSynthesis.Proofs.JavaRuns

/-!
# BindingSynthesis.Proofs.JavaCalls

What the methods of the generated classes do.

```
source     … public Object headWithKwargs(Object arg0, PyDict kwargs) { … }
actions    imports    self := x    arg0 := v    py_kwargs := m
           result := self.head(arg0, **py_kwargs)    give result
call       head of x, with v and the keywords m
```

1. The source of the method of a binding is read back to a method (`read_bindingMethod`).
2. Running that with arguments gives actions on the foreign side
   (`actions?_plainMethod`).
3. Without a map of keywords the path of the binding is invoked (`performAll_positional`).
   With one a text is run: it makes the call that it denotes (`performAll_keywords`), and the
   foreign side refuses it if the method has a name that is none there
   (`performAll_receiver`).
4. So a method forwards what it declares unless it has a map of keywords and calls something
   whose name is none of the foreign language (`forwards_bindingMethod`); a method named
   `lambda` is an example (`not_forwards_lambdaBinding`).  A function has to be found from a
   variable that the imports set.
-/

namespace BindingSynthesis.Java

open Foreign

variable {α : Type}

/-! ## reading the method of a binding -/

/-- The method of a binding as it is read: the expression for the interpreter is a
call. -/
def plainMethod (b : Binding) : Method :=
  { bindingMethod {} b with
    body := .declare ({} : EmissionOptions).interpreterType "i" (.call accessorName []) ::
      (bindingBody {} b).tail }

/-- Spelled out like this, the method renders to the same text. -/
theorem source_plainMethod (b : Binding) : (plainMethod b).source = (bindingMethod {} b).source := by
  have hbody : bindingBody {} b =
      .declare ({} : EmissionOptions).interpreterType "i"
        (.verbatim ({} : EmissionOptions).interpreterAccessor) :: (bindingBody {} b).tail := rfl
  have hfirst : (Statement.declare ({} : EmissionOptions).interpreterType "i"
      (.call accessorName [])).source = (Statement.declare ({} : EmissionOptions).interpreterType "i"
        (.verbatim ({} : EmissionOptions).interpreterAccessor)).source := by decide +kernel
  rw [Method.source, Method.source, plainMethod, bindingMethod, hbody]
  simp only [List.map_cons, hfirst, List.tail_cons]

/-- The name of a positional parameter is a path of one word. -/
theorem isPath_argName (i : Nat) : IsPath (argName i) := by
  refine ⟨by simp [argName], fun c hc => ?_⟩
  rw [isPathChar, isWordChar_of_mem_argName hc, Bool.true_or]

/-- All positional parameters are such names. -/
theorem isPath_of_mem_positionalArgs {b : Binding} {name : String} (h : name ∈ b.positionalArgs) :
    IsPath name := by
  obtain ⟨i, -, rfl⟩ := List.mem_map.mp h
  exact isPath_argName i

/-- Names stand in an argument list without a comma or bracket of their own. -/
theorem arePlain_verbatim {names : List String} (h : ∀ name ∈ names, IsPath name) :
    Expr.ArePlain (names.map .verbatim) := by
  induction names with
  | nil => rw [List.map_nil, Expr.ArePlain]; trivial
  | cons name names ih =>
      rw [List.forall_mem_cons] at h
      rw [List.map_cons, Expr.ArePlain, Expr.IsPlain]
      exact ⟨h.1, ih h.2⟩

/-- A call of a plain name with plain arguments is a statement the reader takes as it
stands. -/
theorem isPlain_run {f : String} (hf : f ≠ "return" ∧ IsPath f) {args : List Expr}
    (h : Expr.ArePlain args) : (Statement.run (.call f args)).IsPlain := by
  refine ⟨⟨f, args, rfl, hf.1⟩, ?_⟩
  rw [Expr.IsPlain]
  exact ⟨hf.2, h⟩

/-- Setting a variable quotes its name, so any name may be set. -/
theorem isPlain_setVariable (name : String) {e : Expr} (h : e.IsPlain) :
    (setVariable name e).IsPlain := by
  refine isPlain_run (by decide) ?_
  simp only [Expr.ArePlain, Expr.IsPlain, h, and_self]

/-- The positional form of the call has plain statements only. -/
theorem isPlain_of_mem_positionalCall {b : Binding} {s : Statement} (h : s ∈ positionalCall b) :
    s.IsPlain := by
  rw [positionalCall, List.mem_singleton] at h
  rw [h, Statement.IsPlain, Expr.IsPlain, Expr.ArePlain]
  exact ⟨by decide, trivial, arePlain_verbatim fun _ => isPath_of_mem_positionalArgs⟩

/-- So has the form that goes through `exec`. -/
theorem isPlain_of_mem_keywordCall {b : Binding} {s : Statement} (h : s ∈ keywordCall {} b) :
    s.IsPlain := by
  have hmap : (Expr.call "kwargs.py" []).IsPlain := by
    simp only [Expr.IsPlain, Expr.ArePlain, and_true]
    decide
  obtain h | h := List.mem_append.mp h
  · obtain ⟨name, hname, rfl⟩ := List.mem_map.mp h
    refine isPlain_setVariable name ?_
    rw [Expr.IsPlain]
    exact isPath_of_mem_positionalArgs hname
  · simp only [List.mem_cons, List.not_mem_nil, or_false] at h
    obtain rfl | rfl | rfl := h
    · exact isPlain_setVariable _ hmap
    · exact isPlain_run (by decide) (by simp [Expr.ArePlain, Expr.IsPlain])
    · rw [Statement.IsPlain, Expr.IsPlain]
      refine ⟨by decide, ?_⟩
      simp only [Expr.ArePlain, Expr.IsPlain, and_true, true_and]
      decide

/-- Behind the interpreter declaration, the body has nothing that the reader would take
apart otherwise. -/
theorem isPlain_bindingBody {b : Binding} {s : Statement} (h : s ∈ (bindingBody {} b).tail) :
    s.IsPlain := by
  obtain rfl | h := List.mem_cons.mp h
  · refine isPlain_run (by decide) ?_
    simp only [Expr.ArePlain, Expr.IsPlain, and_true]
    decide
  obtain h | h := List.mem_append.mp h
  · cases hkind : b.ownerKind with
    | libraryLevel => simp [hkind] at h
    | classLevel =>
        rw [hkind] at h
        rw [List.mem_singleton.mp h]
        refine isPlain_setVariable _ ?_
        rw [Expr.IsPlain]
        decide
  · split at h
    · exact isPlain_of_mem_keywordCall h
    · exact isPlain_of_mem_positionalCall h

/-- **The method of a binding is plain** as it is read. -/
theorem isPlain_plainMethod {b : Binding} (hname : IsPath b.name)
    (hdoc : CommentText.FitsComment b.doc.toList) : (plainMethod b).IsPlain where
  comment := hdoc
  modifiers := by
    change ∃ words, bindingModifiers b.ownerKind = _ ∧ _
    cases b.ownerKind with
    | libraryLevel => exact ⟨["public", "static"], rfl, by decide⟩
    | classLevel => exact ⟨["public"], rfl, by decide⟩
  result := ⟨"Object", rfl, by decide⟩
  name := hname
  params := by
    intro p hp
    obtain hp | hp := List.mem_append.mp hp
    · obtain ⟨name, hname, rfl⟩ := List.mem_map.mp hp
      exact ⟨(by decide : IsPath "Object"), isPath_of_mem_positionalArgs hname⟩
    · split at hp
      · rw [List.mem_singleton.mp hp]
        decide
      · cases hp
  body := by
    intro s hs
    obtain rfl | hs := List.mem_cons.mp hs
    · refine ⟨by decide, by decide, by decide, ?_⟩
      simp only [Expr.IsPlain, Expr.ArePlain, and_true]
      decide
    · exact isPlain_bindingBody hs

/-- **The source of the method of a binding is read back**. -/
theorem read_bindingMethod {b : Binding} (hname : IsPath b.name)
    (hdoc : CommentText.FitsComment b.doc.toList) :
    read? (bindingMethod {} b).source = some { plainMethod b with comment := "" } := by
  rw [← source_plainMethod, read_source (isPlain_plainMethod hname hdoc)]

/-! ## actions of the method of a binding -/

/-- The names of the parameters of the method of a binding. -/
def paramNames (b : Binding) : List String :=
  b.positionalArgs ++ if b.keywordTail then ["kwargs"] else []

/-- The rendered parameters have the names of the binding, in its order. -/
theorem params_plainMethod (b : Binding) :
    (plainMethod b).params.map Param.name = paramNames b := by
  change (bindingParams {} b).map Param.name = _
  rw [bindingParams, paramNames, List.map_append, List.map_map]
  congr 1
  · exact List.map_id _
  · split <;> rfl

/-- No two parameters share a name: the numbers differ, and `kwargs` has none. -/
theorem nodup_paramNames (b : Binding) : (paramNames b).Nodup := by
  refine List.nodup_append.mpr ⟨nodup_positionalArgs b, by split <;> simp, ?_⟩
  rintro name hname last hlast rfl
  split at hlast
  · rw [List.mem_singleton.mp hlast] at hname
    exact not_mem_positionalArgs (by decide) b hname
  · cases hlast

/-- The arguments of a method with a map of keywords, or without one. -/
def argumentsOf (b : Binding) (args : List α) (kwargs : α) : List (Value α) :=
  args.map .object ++ if b.keywordTail then [.keywords kwargs] else []

section

variable (b : Binding) {args : List α} (kwargs : α)

/-- The parameters of the method of a binding when it is called. -/
def paramsOf (b : Binding) (args : List α) (kwargs : α) : Variables (Value α) :=
  setAll (fun _ => none) ((paramNames b).zip (argumentsOf b args kwargs))

/-- Only the parameters have a value on entry. -/
theorem paramsOf_of_not_mem {name : String} (h : name ∉ paramNames b) :
    paramsOf b args kwargs name = none := by
  refine setAll_of_not_mem (fun hmem => h ?_) _
  obtain ⟨x, hx, rfl⟩ := List.mem_map.mp hmem
  exact (List.of_mem_zip hx).1

/-- A name that is neither numbered nor `kwargs` is no parameter. -/
theorem not_mem_paramNames {name : String} (harg : ¬"arg".toList <+: name.toList)
    (hkwargs : name ≠ "kwargs") : name ∉ paramNames b := by
  rw [paramNames, List.mem_append, not_or]
  refine ⟨not_mem_positionalArgs harg b, ?_⟩
  split
  · simpa using hkwargs
  · exact List.not_mem_nil

/-- On entry the positional parameters hold the arguments and `kwargs` holds the map. -/
theorem paramsOf_eq (hlength : args.length = b.arity) :
    paramsOf b args kwargs =
      setAll (setAll (fun _ => none) (b.positionalArgs.zip (args.map .object)))
        (if b.keywordTail then [("kwargs", .keywords kwargs)] else []) := by
  rw [paramsOf, paramNames, argumentsOf, List.zip_append (by simp [hlength]), setAll_append]
  cases b.keywordTail <;> rfl

/-- Position by position, a parameter holds the argument it was called with. -/
theorem have_paramsOf (hlength : args.length = b.arity) :
    (paramsOf b args kwargs).Have b.positionalArgs (args.map .object) := by
  refine (have_setAll (nodup_positionalArgs b) (by simp [hlength]) fun _ => none).congr
    fun name hname => ?_
  rw [paramsOf_eq b kwargs hlength]
  refine setAll_of_not_mem (fun hmem => ?_) _
  split at hmem
  · have hkwargs : name = "kwargs" := List.mem_singleton.mp hmem
    rw [hkwargs] at hname
    exact not_mem_positionalArgs (by decide) b hname
  · cases hmem

/-- The keyword map is passed behind the positional arguments and under its own name. -/
theorem paramsOf_kwargs (hlength : args.length = b.arity) (htail : b.keywordTail = true) :
    paramsOf b args kwargs "kwargs" = some (.keywords kwargs) := by
  rw [paramsOf_eq b kwargs hlength, if_pos htail, setAll, List.foldl_cons, List.foldl_nil]
  exact Function.update_self "kwargs" _ _

end

/-- How a binding is called on the foreign side, with its arguments and a map of
keywords. -/
def callActions (b : Binding) (args : List α) (map : α) : List (Action α) :=
  if b.keywordTail then
    (b.positionalArgs.zip args).map (fun x => .set x.1 x.2) ++
      [.set kwargsVariable map, .exec ("result = " ++ b.foreignCall kwargsVariable),
        .fetch "result"]
  else [.invoke b.target.path args]

/-- What the method of a binding does on the foreign side. -/
def actionsFor (b : Binding) (wrapped : α) (args : List α) (map : α) : List (Action α) :=
  .imports ::
    ((match b.ownerKind with
      | .libraryLevel => []
      | .classLevel => [.set "self" wrapped]) ++ callActions b args map)

/-- The scope behind the declaration of the interpreter. -/
def scopeOf (b : Binding) (host : Host α) (args : List α) (kwargs : α) : Scope α where
  locals := Function.update (paramsOf b args kwargs) "i" (some .interpreter)
  fields := host.fields b.ownerKind
  py := host.py

/-- The first statement binds `i` to the interpreter, in every method. -/
theorem lookup_interpreter (b : Binding) (host : Host α) (args : List α) (kwargs : α) :
    (scopeOf b host args kwargs).lookup "i" = some .interpreter := by
  have hlocal : (scopeOf b host args kwargs).locals "i" = some .interpreter := by simp [scopeOf]
  rw [Scope.lookup, hlocal]
  rfl

section

variable (b : Binding) (host : Host α) {args : List α} (kwargs : α)

/-- Nothing but `i` is declared in a body. -/
theorem locals_scopeOf_of_ne {name : String} (h : name ≠ "i") :
    (scopeOf b host args kwargs).locals name = paramsOf b args kwargs name :=
  Function.update_of_ne h _ _

/-- The declared interpreter hides no positional parameter. -/
theorem have_scopeOf (hlength : args.length = b.arity) :
    (scopeOf b host args kwargs).locals.Have b.positionalArgs (args.map .object) := by
  refine (have_paramsOf b kwargs hlength).congr fun name hname => ?_
  refine locals_scopeOf_of_ne b host kwargs ?_
  rintro rfl
  exact not_mem_positionalArgs (by decide) b hname

/-- A class-level method finds the wrapped object in the field of its class. -/
theorem object?_pyObj (hkind : b.ownerKind = .classLevel) :
    (scopeOf b host args kwargs).object? (.verbatim "pyObj") = some host.wrapped := by
  have hlocal : (scopeOf b host args kwargs).locals "pyObj" = none :=
    (locals_scopeOf_of_ne b host kwargs (by decide)).trans
      (paramsOf_of_not_mem b kwargs (not_mem_paramNames b (by decide) (by decide)))
  rw [Scope.object?, Scope.value?, Scope.lookup, hlocal, scopeOf, hkind]
  rfl

/-- The keyword map is handed over in its foreign form. -/
theorem object?_kwargs (hlength : args.length = b.arity) (htail : b.keywordTail = true) :
    (scopeOf b host args kwargs).object? (.call "kwargs.py" []) = some (host.py kwargs) := by
  have hsplit : splitCall? "kwargs.py" = some ("kwargs", "py") := by decide
  have hlookup : (scopeOf b host args kwargs).lookup "kwargs" = some (.keywords kwargs) := by
    have hlocal : (scopeOf b host args kwargs).locals "kwargs" = some (.keywords kwargs) :=
      (locals_scopeOf_of_ne b host kwargs (by decide)).trans (paramsOf_kwargs b kwargs hlength htail)
    rw [Scope.lookup, hlocal]
    rfl
  rw [Scope.object?, Scope.value?, if_neg (by decide), if_neg (by decide), hsplit]
  simp only [Option.bind_eq_bind, Option.bind_some, hlookup]
  rfl

/-- The statements of either form perform the actions listed for them. -/
theorem actions?_call (hlength : args.length = b.arity) :
    (scopeOf b host args kwargs).actions?
      (if b.keywordTail then keywordCall {} b else positionalCall b) =
    some (callActions b args (host.py kwargs)) := by
  have hi := lookup_interpreter b host args kwargs
  have hargs := have_scopeOf b host kwargs hlength
  rw [callActions]
  cases htail : b.keywordTail with
  | true =>
      have hmap := Scope.action?_set hi kwargsVariable (object?_kwargs b host kwargs hlength htail)
      refine Scope.actions?_sets hi hargs (Scope.actions?_run hmap ?_)
      exact Scope.actions?_run (Scope.action?_exec hi _)
        (Scope.actions?_give (Scope.action?_fetch hi "result" _))
  | false =>
      exact Scope.actions?_give (Scope.action?_invoke hi _ (Scope.mapM_object? hargs))

/-- **Running the method of a binding** sets the wrapped object, and then calls. -/
theorem actions?_plainMethod (hlength : args.length = b.arity) :
    (plainMethod b).actions? host b.ownerKind (argumentsOf b args kwargs) =
      some (actionsFor b host.wrapped args (host.py kwargs)) := by
  have hparams : (argumentsOf b args kwargs).length = (plainMethod b).params.length := by
    rw [← List.length_map Param.name, params_plainMethod, argumentsOf, paramNames]
    cases b.keywordTail <;> simp [hlength]
  have hi := lookup_interpreter b host args kwargs
  have hfree : paramsOf b args kwargs "i" = none :=
    paramsOf_of_not_mem b kwargs (not_mem_paramNames b (by decide) (by decide))
  have hcall := actions?_call b host kwargs hlength
  have hbody : (scopeOf b host args kwargs).actions? (bindingBody {} b).tail =
      some (actionsFor b host.wrapped args (host.py kwargs)) := by
    refine Scope.actions?_run (Scope.action?_imports hi) ?_
    cases hkind : b.ownerKind with
    | libraryLevel => exact hcall
    | classLevel =>
        exact Scope.actions?_run (Scope.action?_set hi _ (object?_pyObj b host kwargs hkind)) hcall
  rw [Method.actions?, if_pos hparams, params_plainMethod]
  change Scope.actions? ⟨paramsOf b args kwargs, host.fields b.ownerKind, host.py⟩
    (.declare _ "i" (.call accessorName []) :: (bindingBody {} b).tail) = _
  rw [Scope.actions?, if_neg (by simp [hfree]), Scope.value?, if_neg (by decide), if_pos rfl]
  exact hbody

end

/-! ## the call that is made -/

/-- The path and the arguments of an invocation. -/
def invocation? : Action α → Option (String × List α)
  | .invoke path args => some (path, args)
  | _ => none

/-- The interpreter is asked to invoke something only where there is no keyword tail. -/
theorem invocations_actionsFor (b : Binding) (wrapped : α) (args : List α) (map : α) :
    (actionsFor b wrapped args map).filterMap invocation? =
      if b.keywordTail then [] else [(b.target.path, args)] := by
  have hcall : (callActions b args map).filterMap invocation? =
      if b.keywordTail then [] else [(b.target.path, args)] := by
    have hsets : ((b.positionalArgs.zip args).map fun x => Action.set x.1 x.2).filterMap
        invocation? = [] := by
      rw [List.filterMap_map]
      exact List.filterMap_eq_nil_iff.mpr fun _ _ => rfl
    rw [callActions]
    cases b.keywordTail with
    | false => rfl
    | true =>
        rw [if_pos rfl, List.filterMap_append, hsets]
        rfl
  rw [actionsFor]
  cases b.ownerKind with
  | libraryLevel | classLevel => exact hcall

/-- The variables when the call of a binding starts: imports have run, and the wrapped object
of a class is `self`. -/
def startVars (b : Binding) (w : World α) (wrapped : α) (vars : Variables α) : Variables α :=
  match b.ownerKind with
  | .libraryLevel => w.imported vars
  | .classLevel => Function.update (w.imported vars) "self" (some wrapped)

/-- The variables when a text is run for a binding: those of its arguments are set as well. -/
def boundVars (b : Binding) (args : List α) (map : α) (vars : Variables α) : Variables α :=
  Function.update (setAll vars (b.positionalArgs.zip args)) kwargsVariable (some map)

/-- When a class-level body reaches the call, `self` is the wrapped object. -/
theorem startVars_self {b : Binding} (hclass : b.ownerKind = .classLevel) (w : World α)
    (wrapped : α) (vars : Variables α) : startVars b w wrapped vars "self" = some wrapped := by
  rw [startVars, hclass]
  exact Function.update_self "self" (some wrapped) (w.imported vars)

/-- The variables of the arguments have them as values. -/
theorem have_boundVars (b : Binding) {args : List α} (hlength : args.length = b.arity) (map : α)
    (vars : Variables α) : (boundVars b args map vars).Have b.positionalArgs args := by
  refine (have_setAll (nodup_positionalArgs b) (by simp [hlength]) vars).congr fun name hname => ?_
  refine Function.update_of_ne ?_ _ _
  rintro rfl
  exact not_mem_positionalArgs (by decide) b hname

/-- The keyword map is bound last, so no positional variable can replace it. -/
theorem boundVars_kwargs (b : Binding) (args : List α) (map : α) (vars : Variables α) :
    boundVars b args map vars kwargsVariable = some map := Function.update_self _ _ _

/-- Setting the arguments leaves `self` as it is. -/
theorem boundVars_self (b : Binding) (args : List α) (map : α) (vars : Variables α) :
    boundVars b args map vars "self" = vars "self" := by
  refine (Function.update_of_ne (by decide) _ _).trans (setAll_of_not_mem (fun hmem => ?_) _)
  obtain ⟨x, hx, hself⟩ := List.mem_map.mp hmem
  have hname : "self" ∈ b.positionalArgs := hself ▸ (List.of_mem_zip hx).1
  exact not_mem_positionalArgs (by decide) b hname

/-- The variable of the keyword map is an ASCII name, hence one under every alphabet. -/
theorem isName_kwargsVariable (a : Alphabet) : a.IsName kwargsVariable :=
  Alphabet.isName_of_isWordChar (c := 'p') rfl (.inl (by decide)) (by decide) (by decide)

/-- What is set up before the call of a binding gives nothing and calls nothing. -/
theorem performAll_actionsFor (b : Binding) (w : World α) (wrapped : α) (args : List α) (map : α)
    (vars : Variables α) :
    State.performAll w ⟨vars, []⟩ (actionsFor b wrapped args map) =
      State.performAll w ⟨startVars b w wrapped vars, []⟩ (callActions b args map) := by
  rw [actionsFor, startVars]
  cases b.ownerKind <;> rfl

/-- The call of a binding without a map of keywords is made by its path. -/
theorem performAll_positional {b : Binding} (htail : b.keywordTail = false) (w : World α)
    (args : List α) (map : α) (vars : Variables α) :
    State.performAll w ⟨vars, []⟩ (callActions b args map) =
      (callOf? b vars args map).map fun c => (some (w.result ⟨c, vars⟩), ⟨vars, [⟨c, vars⟩]⟩) := by
  rw [callActions, callOf?, htail]
  change (State.perform w ⟨vars, []⟩ (.invoke b.target.path args)).bind some = _
  rw [State.perform, ← namesOf]
  cases startOf vars (namesOf b) <;> rfl

/-- The call of a binding with a map of keywords is the one that its text denotes, if the text
is not refused. -/
theorem performAll_keywords {b : Binding} (htail : b.keywordTail = true) (w : World α)
    (args : List α) (map : α) (vars : Variables α) :
    State.performAll w ⟨vars, []⟩ (callActions b args map) =
      (denoted? w.alphabet (boundVars b args map vars) (b.foreignCall kwargsVariable)).map fun c =>
        (some (w.result ⟨c, boundVars b args map vars⟩),
          ⟨Function.update (boundVars b args map vars) "result"
            (some (w.result ⟨c, boundVars b args map vars⟩)), [⟨c, boundVars b args map vars⟩]⟩) := by
  rw [callActions, if_pos htail, State.performAll, List.foldlM_append, foldlM_perform_set]
  change (State.perform w ⟨boundVars b args map vars, []⟩ (.exec _)).bind (fun done =>
    (done.2.perform w (.fetch "result")).bind some) = _
  rw [perform_exec]
  cases denoted? w.alphabet (boundVars b args map vars) (b.foreignCall kwargsVariable) with
  | none => rfl
  | some c =>
      change (State.perform w ⟨Function.update (boundVars b args map vars) "result"
        (some _), _⟩ (.fetch "result")).bind some = _
      rw [perform_fetch]
      rfl

/-- The call of a method of the wrapped object with a map of keywords. -/
def methodCall (wrapped : α) (args : List α) (map : α) (name : String) : Call α :=
  ⟨["self", name], wrapped, args, some map⟩

/-- **A method with a map of keywords** calls what its foreign name stands for, and is refused
if that is no name. -/
theorem performAll_receiver {b : Binding} (htail : b.keywordTail = true)
    (hclass : b.ownerKind = .classLevel) {method : String} (htarget : b.target = .receiver method)
    (hmethod : '.' ∉ method.toList) (w : World α) (wrapped : α) {args : List α}
    (hlength : args.length = b.arity) (map : α) (vars : Variables α) :
    ∃ bound, bound "self" = some wrapped ∧
      State.performAll w ⟨vars, []⟩ (actionsFor b wrapped args map) =
        (w.alphabet.name? method.toList).map fun name =>
          (some (w.result ⟨methodCall wrapped args map name, bound⟩),
            ⟨Function.update bound "result"
              (some (w.result ⟨methodCall wrapped args map name, bound⟩)),
              [⟨methodCall wrapped args map name, bound⟩]⟩) := by
  have hself : boundVars b args map (startVars b w wrapped vars) "self" = some wrapped := by
    rw [boundVars_self, startVars_self hclass]
  have hdenoted := denoted?_foreignCall_eq w.alphabet b (isName_kwargsVariable _)
    (have_boundVars b hlength map (startVars b w wrapped vars))
    fun _ => boundVars_kwargs b args map (startVars b w wrapped vars)
  rw [htarget, path?_receiver _ hmethod, if_pos htail] at hdenoted
  refine ⟨boundVars b args map (startVars b w wrapped vars), hself, ?_⟩
  rw [performAll_actionsFor, performAll_keywords htail, hdenoted]
  cases w.alphabet.name? method.toList with
  | none => rfl
  | some name =>
      have hstart : startOf (boundVars b args map (startVars b w wrapped vars)) ["self", name] =
          some wrapped := hself
      rw [Option.map_some, Option.bind_some, hstart]
      rfl

/-! ## the methods of a plan -/

/-- A method of a wrapper, called with arguments and a map of keywords, forwards them as its
binding says. -/
structure Forwards (b : Binding) (host : Host α) (world : World α) (vars : Variables α)
    (args : List α) (kwargs : α) (made : Made α) : Prop where
  /-- No other call is made, and the method gives the result of this one. -/
  performed : ∃ after,
    State.performAll world ⟨vars, []⟩ (actionsFor b host.wrapped args (host.py kwargs)) =
      some (some (world.result made), ⟨after, [made]⟩)
  /-- What is called is found on the path of the target. -/
  call_eq : callOf? b made.vars args (host.py kwargs) = some made.call
  /-- A method is looked up in the wrapped object, which `self` stands for. -/
  self_of_classLevel : b.ownerKind = .classLevel →
    made.vars "self" = some host.wrapped ∧ made.call.start = host.wrapped

/-- The path of a class-level binding starts at the wrapped object. -/
theorem startOf_startVars {b : Binding} (hclass : b.ownerKind = .classLevel)
    (hself : (namesOf b).head? = some "self") (world : World α) (wrapped : α)
    (vars : Variables α) : startOf (startVars b world wrapped vars) (namesOf b) = some wrapped := by
  rw [startOf, hself]
  exact startVars_self hclass world wrapped vars

/-- A binding without a map of keywords is forwarded exactly if its path starts at a variable
that is set. -/
theorem forwards_iff_of_positional {b : Binding} (htail : b.keywordTail = false)
    (hself : b.ownerKind = .classLevel → (namesOf b).head? = some "self") (host : Host α)
    (world : World α) (vars : Variables α) (args : List α) (kwargs : α) :
    (∃ made, Forwards b host world vars args kwargs made) ↔
      (startOf (startVars b world host.wrapped vars) (namesOf b)).isSome := by
  have hperform := performAll_positional htail world args (host.py kwargs)
    (startVars b world host.wrapped vars)
  rw [← performAll_actionsFor] at hperform
  constructor
  · rintro ⟨made, ⟨after, hmade⟩, -, -⟩
    obtain ⟨c, hc, -⟩ := Option.map_eq_some_iff.mp (hperform.symm.trans hmade)
    obtain ⟨start, hstart, -⟩ := Option.map_eq_some_iff.mp hc
    exact Option.isSome_of_eq_some hstart
  · intro hset
    obtain ⟨start, hstart⟩ := Option.isSome_iff_exists.mp hset
    have hcall : callOf? b (startVars b world host.wrapped vars) args (host.py kwargs) =
        some ⟨namesOf b, start, args, if b.keywordTail then some (host.py kwargs) else none⟩ := by
      rw [callOf?, hstart]
      rfl
    refine ⟨⟨_, startVars b world host.wrapped vars⟩, ?_, hcall, fun hclass => ?_⟩
    · rw [hperform, hcall]
      exact ⟨_, rfl⟩
    · refine ⟨startVars_self hclass world host.wrapped vars, ?_⟩
      have hwrapped := startOf_startVars hclass (hself hclass) world host.wrapped vars
      exact Option.some.inj (hstart.symm.trans hwrapped)

/-- A binding with a map of keywords is forwarded exactly if the method that it calls has a
name of the foreign language. -/
theorem forwards_iff_of_keywords {b : Binding} (htail : b.keywordTail = true)
    (hclass : b.ownerKind = .classLevel) {method : String} (htarget : b.target = .receiver method)
    (hmethod : '.' ∉ method.toList) (host : Host α) (world : World α) (vars : Variables α)
    {args : List α} (hlength : args.length = b.arity) (kwargs : α) :
    (∃ made, Forwards b host world vars args kwargs made) ↔ world.alphabet.IsName method := by
  obtain ⟨bound, hself, hperform⟩ := performAll_receiver htail hclass htarget hmethod world
    host.wrapped hlength (host.py kwargs) vars
  have hcallOf (vars : Variables α) : callOf? b vars args (host.py kwargs) =
      (vars "self").map fun start => ⟨["self", method], start, args, some (host.py kwargs)⟩ := by
    rw [callOf?, namesOf_receiver htarget hmethod, if_pos htail]
    rfl
  constructor
  · rintro ⟨made, ⟨after, hmade⟩, hcall, -⟩
    rw [hperform] at hmade
    obtain ⟨name, hname, hdone⟩ := Option.map_eq_some_iff.mp hmade
    simp only [Prod.mk.injEq, State.mk.injEq, List.cons.injEq, and_true] at hdone
    rw [hcallOf] at hcall
    obtain ⟨start, -, hcall⟩ := Option.map_eq_some_iff.mp hcall
    -- The call that was made is on the names that were read, and so on the method itself.
    have hmethodCall : methodCall host.wrapped args (host.py kwargs) name = made.call :=
      congrArg Made.call hdone.2.2
    have hread : ["self", name] = ["self", method] :=
      congrArg Call.names (hmethodCall.trans hcall.symm)
    obtain rfl : name = method := by simpa using hread
    exact hname
  · intro hname
    have hcall : callOf? b bound args (host.py kwargs) =
        some (methodCall host.wrapped args (host.py kwargs) method) := by
      rw [hcallOf, hself]
      rfl
    refine ⟨⟨_, bound⟩, ?_, hcall, fun _ => ⟨hself, rfl⟩⟩
    rw [hperform, hname]
    exact ⟨_, rfl⟩

/-- A word of a binding name is a path of one segment. -/
theorem isPath_of_isWord {name : String} (h : HostName.IsWord name.toList) : IsPath name := by
  obtain ⟨c, cs, hcs⟩ : ∃ c cs, name.toList = c :: cs :=
    List.exists_cons_of_ne_nil fun hnil => by rw [hnil] at h; exact h
  rw [hcs] at h
  obtain ⟨hfirst, hmore⟩ := h
  refine ⟨fun hnil => by simp [hnil] at hcs, ?_⟩
  rw [hcs, List.forall_mem_cons]
  refine ⟨?_, fun d hd => by rw [isPathChar, hmore d hd, Bool.true_or]⟩
  obtain hletter | rfl := hfirst
  · simp [isPathChar, HostName.isWordChar, hletter]
  · decide

/-- Paths may be written one behind the other. -/
theorem IsPath.append {s t : String} (hs : IsPath s) (ht : IsPath t) : IsPath (s ++ t) := by
  refine ⟨by simp [hs.1], fun c hc => ?_⟩
  rw [String.toList_append, List.mem_append] at hc
  exact hc.elim (hs.2 c) (ht.2 c)

open Synthesis in
/-- The name of a binding is a word, if the ending is the usual one. -/
theorem isPath_name {o : SynthesisOptions} {l : Library}
    (hending : o.kwargsSuffix = ({} : SynthesisOptions).kwargsSuffix) {w : Wrapper}
    (hw : w ∈ (synthesize o l).wrappers) {b : Binding} (hb : b ∈ w.bindings) : IsPath b.name := by
  obtain ⟨_, host, hhost, hname⟩ := host_of_mem_bindings hw hb
  have hword : IsPath host := isPath_of_isWord (HostName.isDeclarable_of_forBinding? hhost).1.word
  rw [hname]
  split
  · rw [hending]
    exact hword.append (by decide)
  · exact hword

/-- A usable name has no dot. -/
theorem dot_not_mem_of_forBinding? {name host : String}
    (h : HostName.forBinding? name = some host) : '.' ∉ name.toList := by
  have hidentifier : HostName.isIdentifier name.toList = true := by
    have husable := (HostName.forBinding?_eq_some h).1
    rw [HostName.isUsable, Bool.and_eq_true] at husable
    exact husable.1
  intro hdot
  cases hname : name.toList with
  | nil => simp [hname] at hdot
  | cons c more =>
      rw [hname, HostName.isIdentifier, Bool.and_eq_true, List.all_eq_true] at hidentifier
      rw [hname] at hdot
      obtain rfl | hmore := List.mem_cons.mp hdot
      · exact absurd hidentifier.1 (by decide +kernel)
      · exact absurd (hidentifier.2 '.' hmore) (by decide +kernel)

open Synthesis in
/-- **What the methods of a plan forward.**  The parameters of a method have different names.
Called with arguments, it does these actions on the foreign side, which invoke nothing but the
path of its binding, if it has no map of keywords.  It forwards the arguments exactly if a
method that is called with a map of keywords has a name of the foreign language, and a function
is on a path from a variable that the imports set; and the call that its binding writes down
denotes the same, if all names on the path are such names. -/
theorem forwards_bindingMethod (o : SynthesisOptions) (l : Library)
    (hending : o.kwargsSuffix = ({} : SynthesisOptions).kwargsSuffix) {w : Wrapper}
    (hw : w ∈ (synthesize o l).wrappers) {b : Binding} (hb : b ∈ w.bindings) :
    ∃ m, read? (bindingMethod {} b).source = some m ∧
      m.params.map Param.name = (List.range b.arity).map (fun i => "arg" ++ toString i) ++
        (if b.keywordTail then ["kwargs"] else []) ∧
      (m.params.map Param.name).Nodup ∧
      ∀ (α : Type) (host : Host α) (world : World α) (vars : Variables α) (args : List α)
        (kwargs : α), args.length = b.arity →
          m.actions? host b.ownerKind (argumentsOf b args kwargs) =
              some (actionsFor b host.wrapped args (host.py kwargs)) ∧
            (actionsFor b host.wrapped args (host.py kwargs)).filterMap invocation? =
              (if b.keywordTail then [] else [(b.target.path, args)]) ∧
            ((∃ made, Forwards b host world vars args kwargs made) ↔
              (b.keywordTail = true → world.alphabet.IsName b.target.callable) ∧
                (b.ownerKind = .libraryLevel →
                  (startOf (world.imported vars) (namesOf b)).isSome)) ∧
            ((∀ name ∈ namesOf b, world.alphabet.IsName name) →
              ∀ bound : Variables α, bound.Have b.positionalArgs args →
                bound kwargsVariable = some (host.py kwargs) →
                  denoted? world.alphabet bound (b.foreignCall kwargsVariable) =
                    callOf? b bound args (host.py kwargs)) := by
  have hcoherent := (isCoherent_of_mem_wrappers o l hw).bindings b hb
  have htarget (hkind : b.ownerKind = .classLevel) : b.target = .receiver b.target.callable := by
    obtain ⟨method, hmethod⟩ := hcoherent.receiver_iff.mpr (hcoherent.ownerKind ▸ hkind)
    rw [hmethod]
    rfl
  have hdot : '.' ∉ b.target.callable.toList := by
    obtain ⟨c, -, hcallable, host, hhost, -⟩ := hcoherent.host
    exact hcallable ▸ dot_not_mem_of_forBinding? hhost
  refine ⟨_, read_bindingMethod (isPath_name hending hw hb) (fitsComment_doc_binding hw hb),
    params_plainMethod b, params_plainMethod b ▸ nodup_paramNames b, ?_⟩
  intro α host world vars args kwargs hlength
  refine ⟨actions?_plainMethod b host kwargs hlength,
    invocations_actionsFor b host.wrapped args (host.py kwargs), ?_, ?_⟩
  · cases htail : b.keywordTail with
    | false =>
        have hself (hclass : b.ownerKind = .classLevel) : (namesOf b).head? = some "self" := by
          rw [namesOf_receiver (htarget hclass) hdot]
          rfl
        rw [forwards_iff_of_positional htail hself]
        cases hkind : b.ownerKind with
        | libraryLevel => simp [startVars, hkind]
        | classLevel => simp [startOf_startVars hkind (hself hkind)]
    | true =>
        have hclass : b.ownerKind = .classLevel :=
          hcoherent.ownerKind.trans (hcoherent.kind_of_keywordTail htail)
        rw [forwards_iff_of_keywords htail hclass (htarget hclass) hdot host world vars hlength
          kwargs, hclass]
        simp
  · intro hnames bound hargs hkwargs
    exact denoted?_foreignCall (isName_kwargsVariable _) hnames hargs fun _ => hkwargs

/-- A class with a documented method, one of whose two parameters is optional. -/
def frameClass : ForeignClass :=
  ⟨"Frame", "lib.core", none,
    [⟨"query", ["self", "expr", "kwargs"], 1, some "Rows /* of a frame */.", "lib.core"⟩]⟩

/-- The overload of that method with a map of keywords. -/
def queryBinding : Binding where
  ownerKind := .classLevel
  ownerName := "JFrame"
  name := "queryWithKwargs"
  arity := 1
  keywordTail := true
  target := .receiver "query"
  requiresAlias := false
  doc := "Rows /* of a frame *&#47;."

/-- A foreign side that knows ASCII only, where a call gives the names that it was made on. -/
def plainWorld : World String where
  alphabet := ⟨fun _ => false, fun _ => false, id⟩
  imported := id
  result made := Text.joined "." made.call.names

/-- What a method of `JFrame` does when it is called with text for every value. -/
def frameActions (method : String) : List (Action String) :=
  [.imports, .set "self" "a frame", .set "arg0" "x > 1", .set "py_kwargs" "py limits",
    .exec ("result = self." ++ method ++ "(arg0, **py_kwargs)"), .fetch "result"]

open Synthesis in
/-- A method with one positional parameter and a keyword tail makes the call that is asked
for. -/
theorem forwards_queryBinding :
    (classWrapper {} "lib" frameClass).1 ∈ (synthesize {} ⟨"lib", [], [frameClass]⟩).wrappers ∧
    queryBinding ∈ (classWrapper {} "lib" frameClass).1.bindings ∧
    ∃ m, read? (bindingMethod {} queryBinding).source = some m ∧
      m.params.map Param.name = ["arg0", "kwargs"] ∧
      m.actions? ⟨"a frame", fun map => "py " ++ map⟩ .classLevel
          [.object "x > 1", .keywords "limits"] = some (frameActions "query") ∧
      ∃ made, Forwards queryBinding ⟨"a frame", fun map => "py " ++ map⟩ plainWorld
          (fun _ => none) ["x > 1"] "limits" made ∧
        made.call = ⟨["self", "query"], "a frame", ["x > 1"], some "py limits"⟩ := by
  have hw : (classWrapper {} "lib" frameClass).1 ∈
      (synthesize {} ⟨"lib", [], [frameClass]⟩).wrappers :=
    mem_wrappers_synthesize.mpr (.inr ⟨frameClass, by decide +kernel, rfl⟩)
  have hb : queryBinding ∈ (classWrapper {} "lib" frameClass).1.bindings := by decide +kernel
  obtain ⟨m, hread, hparams, -, hforwards⟩ := forwards_bindingMethod {} _ rfl hw hb
  obtain ⟨hactions, -, hiff, -⟩ := hforwards String ⟨"a frame", fun map => "py " ++ map⟩ plainWorld
    (fun _ => none) ["x > 1"] "limits" rfl
  obtain ⟨made, hmade⟩ := hiff.mpr ⟨fun _ => by decide +kernel, fun hkind => by cases hkind⟩
  have hcall : callOf? queryBinding made.vars ["x > 1"] "py limits" =
      some ⟨["self", "query"], "a frame", ["x > 1"], some "py limits"⟩ := by
    rw [callOf?, startOf, show (namesOf queryBinding).head?.bind made.vars = some "a frame" from
      (hmade.self_of_classLevel rfl).1]
    rfl
  exact ⟨hw, hb, m, hread, hparams, hactions, made, hmade,
    Option.some.inj (hmade.call_eq.symm.trans hcall)⟩

/-- A class whose method has the name of a keyword of the foreign language. -/
def lambdaClass : ForeignClass :=
  ⟨"Frame", "lib.core", none, [⟨"lambda", ["self", "expr", "kwargs"], 1, none, "lib.core"⟩]⟩

/-- The overload of that method with a map of keywords. -/
def lambdaBinding : Binding :=
  { queryBinding with name := "lambdaWithKwargs", target := .receiver "lambda", doc := "" }

open Synthesis in
/-- The text that is run for that overload is refused, whatever the foreign side is like. -/
theorem not_forwards_lambdaBinding :
    (classWrapper {} "lib" lambdaClass).1 ∈ (synthesize {} ⟨"lib", [], [lambdaClass]⟩).wrappers ∧
    lambdaBinding ∈ (classWrapper {} "lib" lambdaClass).1.bindings ∧
    ∃ m, read? (bindingMethod {} lambdaBinding).source = some m ∧
      m.actions? ⟨"a frame", fun map => "py " ++ map⟩ .classLevel
          [.object "x > 1", .keywords "limits"] = some (frameActions "lambda") ∧
      ∀ (world : World String) (vars : Variables String),
        State.performAll world ⟨vars, []⟩ (frameActions "lambda") = none ∧
          ¬∃ made, Forwards lambdaBinding ⟨"a frame", fun map => "py " ++ map⟩ world vars ["x > 1"]
            "limits" made := by
  have hw : (classWrapper {} "lib" lambdaClass).1 ∈
      (synthesize {} ⟨"lib", [], [lambdaClass]⟩).wrappers :=
    mem_wrappers_synthesize.mpr (.inr ⟨lambdaClass, by decide +kernel, rfl⟩)
  have hb : lambdaBinding ∈ (classWrapper {} "lib" lambdaClass).1.bindings := by decide +kernel
  have hlength : ["x > 1"].length = lambdaBinding.arity := rfl
  have hactions := actions?_plainMethod lambdaBinding ⟨"a frame", fun map => "py " ++ map⟩ "limits"
    hlength
  refine ⟨hw, hb, _, read_bindingMethod (isPath_name rfl hw hb) (fitsComment_doc_binding hw hb),
    hactions, fun world vars => ?_⟩
  obtain ⟨bound, -, hperform⟩ := performAll_receiver (b := lambdaBinding) rfl rfl rfl (by decide)
    world "a frame" hlength "py limits" vars
  rw [Alphabet.name?_of_mem_keywords (by decide), Option.map_none] at hperform
  refine ⟨hperform, ?_⟩
  rintro ⟨made, ⟨after, hmade⟩, -, -⟩
  have hnone : (none : Option (Option String × State String)) = _ := hperform.symm.trans hmade
  cases hnone

end BindingSynthesis.Java
