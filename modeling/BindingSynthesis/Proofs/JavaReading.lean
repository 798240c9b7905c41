import BindingSynthesis.Proofs.JavaTokens

/-!
# BindingSynthesis.Proofs.JavaReading

Reading a Java method from its tokens.

```
tokens       public · Object · f · ( · Object · arg0 · ) · { · … · return · i.invoke · ( · …
method       modifiers, result, name, parameters, statements
```

1. Expressions are read in one pass that keeps the calls that are still open
   (`foldlM_step_tokens`).
2. Parameters are cut at commas and statements at semicolons.
3. What is written as a method is read back as that method (`read_source`), if it is
   plain: its names are words, and its comment is closed.
-/

namespace BindingSynthesis.Java

open CommentText

/-! ## reading -/

/-- An expression that is not read to its end. -/
structure Partial where
  /-- The calls that are open, the inner ones first, with the arguments so far. -/
  calls : List (String × List Expr)
  /-- The expression that was read last, unless one has to follow. -/
  last? : Option Expr

namespace Partial

/-- The arguments of a call begin. -/
def openCall : Partial → Option Partial
  | ⟨calls, some (.verbatim f)⟩ => some ⟨(f, []) :: calls, none⟩
  | _ => none

/-- Another argument follows. -/
def nextArg : Partial → Option Partial
  | ⟨(f, args) :: calls, some e⟩ => some ⟨(f, args ++ [e]) :: calls, none⟩
  | _ => none

/-- The arguments of a call end. -/
def closeCall : Partial → Option Partial
  | ⟨(f, args) :: calls, some e⟩ => some ⟨calls, some (.call f (args ++ [e]))⟩
  | ⟨(f, []) :: calls, none⟩ => some ⟨calls, some (.call f [])⟩
  | _ => none

/-- Reads a token of an expression. -/
def step (p : Partial) : Token → Option Partial
  | .text s => if p.last?.isNone then some { p with last? := some (.text s) } else none
  | .word s => if p.last?.isNone then some { p with last? := some (.verbatim s) } else none
  | .mark c =>
    if c = '(' then p.openCall
    else if c = ',' then p.nextArg
    else if c = ')' then p.closeCall
    else none

end Partial

def readExpr (ts : List Token) : Option Expr :=
  match ts.foldlM Partial.step ⟨[], none⟩ with
  | some ⟨[], some e⟩ => some e
  | _ => none

/-- Reads a statement without its semicolon. -/
def readStatement (ts : List Token) : Option Statement :=
  match ts with
  | .word "return" :: value => (readExpr value).map .give
  | .word type :: .word name :: .mark '=' :: value => (readExpr value).map (.declare type name)
  | .word place :: .mark '=' :: value => (readExpr value).map (.assign place)
  | _ => (readExpr ts).map .run

def readParam : List Token → Option Param
  | [.word type, .word name] => some ⟨type, name⟩
  | _ => none

def readParams (ts : List Token) : Option (List Param) :=
  if ts = [] then some [] else (ts.splitOn (.mark ',')).mapM readParam

/-- Reads the statements of a method and the brace behind them. -/
def readBody (ts : List Token) : Option (List Statement) :=
  match (ts.splitOn (.mark ';')).reverse with
  | [.mark '}'] :: statements => statements.reverse.mapM readStatement
  | _ => none

def readWord : Token → Option String
  | .word s => some s
  | _ => none

/-- Reads a method with a result. -/
def readMethod (ts : List Token) : Option Method :=
  match (ts.takeWhile (· != .mark '(')).reverse, ts.dropWhile (· != .mark '(') with
  | .word name :: .word type :: modifiers, .mark '(' :: more =>
    match more.dropWhile (· != .mark ')') with
    | .mark ')' :: .mark '{' :: body => do
      let modifiers ← modifiers.reverse.mapM readWord
      let params ← readParams (more.takeWhile (· != .mark ')'))
      let body ← readBody body
      pure { modifiers := Text.joined " " modifiers, result? := some type, name, params, body }
    | _ => none
  | _, _ => none

/-- Reads the source of a method with a result. -/
def read? (source : String) : Option Method := (tokens? source).bind readMethod

/-! ## expressions -/

mutual

/-- The tokens of an expression. -/
def Expr.tokens : Expr → List Token
  | .verbatim s => [.word s]
  | .text s => [.text s]
  | .call f args => .word f :: .mark '(' :: (Expr.argTokens args ++ [.mark ')'])
termination_by structural e => e

/-- The tokens of arguments, with commas between them. -/
def Expr.argTokens : List Expr → List Token
  | [] => []
  | [e] => e.tokens
  | e :: more => e.tokens ++ .mark ',' :: Expr.argTokens more
termination_by structural es => es

end

/-- Two arguments have a comma between their tokens. -/
theorem Expr.argTokens_cons_cons (e e' : Expr) (more : List Expr) :
    Expr.argTokens (e :: e' :: more) = e.tokens ++ .mark ',' :: Expr.argTokens (e' :: more) := by
  rw [Expr.argTokens]
  exact fun h => nomatch h

/-- And a comma with a blank between their texts. -/
theorem Expr.sources_cons_cons (e e' : Expr) (more : List Expr) :
    Expr.sources (e :: e' :: more) = e.source ++ ", " ++ Expr.sources (e' :: more) := by
  rw [Expr.sources]
  exact fun h => nomatch h

mutual

/-- The names in an expression are words. -/
def Expr.IsPlain : Expr → Prop
  | .verbatim s => IsPath s
  | .text _ => True
  | .call f args => IsPath f ∧ Expr.ArePlain args
termination_by structural e => e

def Expr.ArePlain : List Expr → Prop
  | [] => True
  | e :: more => e.IsPlain ∧ Expr.ArePlain more
termination_by structural es => es

end

mutual

/-- An expression of plain words is spelled out into its own tokens. -/
theorem spells_source : ∀ e : Expr, e.IsPlain → Spells e.source.toList e.tokens
  | .verbatim s, h => by
      rw [Expr.source, Expr.tokens]
      exact spells_word h
  | .text s, _ => by
      rw [Expr.source, Expr.tokens]
      exact ⟨.code, .inl rfl, scans_literal (.inl rfl) s⟩
  | .call f args, h => by
      rw [Expr.IsPlain] at h
      have hname := (spells_word h.1).append fun m hm => scans_mark hm (c := '(') rfl
      refine ⟨.code, .inl rfl, ?_⟩
      rw [Expr.source, Expr.tokens]
      simpa using hname.append (scans_sources args h.2)

/-- An argument list is scanned with the bracket that closes it, since the last word ends
there. -/
theorem scans_sources : ∀ args : List Expr, Expr.ArePlain args →
    Scans .code ((Expr.sources args).toList ++ [')']) (Expr.argTokens args ++ [.mark ')']) .code
  | [], _ => scans_mark (.inl rfl) rfl
  | [e], h => by
      rw [Expr.ArePlain] at h
      rw [Expr.sources, Expr.argTokens]
      exact (spells_source e h.1).append fun m hm => scans_mark hm rfl
  | e :: e' :: more, h => by
      rw [Expr.ArePlain] at h
      have hcomma := (spells_source e h.1).append fun m hm => scans_mark hm (c := ',') rfl
      rw [Expr.sources_cons_cons, Expr.argTokens_cons_cons]
      simpa using (hcomma.append (scans_space (.inl rfl))).append (scans_sources (e' :: more) h.2)

end

mutual

/-- **Expressions are read back**, inside of any calls. -/
theorem foldlM_step_tokens : ∀ (e : Expr) (calls : List (String × List Expr)),
    e.tokens.foldlM Partial.step ⟨calls, none⟩ = some ⟨calls, some e⟩
  | .verbatim s, calls => rfl
  | .text s, calls => rfl
  | .call f args, calls => by
      rw [Expr.tokens]
      exact foldlM_step_argTokens args f [] calls fun _ => rfl

/-- Reading the arguments of a call adds them to the call that stands open, in order. -/
theorem foldlM_step_argTokens : ∀ (args : List Expr) (f : String) (before : List Expr)
    (calls : List (String × List Expr)), (args = [] → before = []) →
    (Expr.argTokens args ++ [Token.mark ')']).foldlM Partial.step ⟨(f, before) :: calls, none⟩ =
      some ⟨calls, some (.call f (before ++ args))⟩
  | [], f, before, calls, h => by
      rw [h rfl]
      rfl
  | [e], f, before, calls, _ => by
      rw [Expr.argTokens, List.foldlM_append, foldlM_step_tokens e]
      rfl
  | e :: e' :: more, f, before, calls, _ => by
      have hmore := foldlM_step_argTokens (e' :: more) f (before ++ [e]) calls (nomatch ·)
      rw [List.append_assoc] at hmore
      rw [Expr.argTokens_cons_cons, List.append_assoc, List.foldlM_append, foldlM_step_tokens e]
      exact hmore

end

/-- The reader gets an expression back from its tokens. -/
theorem readExpr_tokens (e : Expr) : readExpr e.tokens = some e := by
  rw [readExpr, foldlM_step_tokens]

/-! ## statements -/

/-- The tokens of a statement without its semicolon. -/
def Statement.tokens : Statement → List Token
  | .declare type name value => .word type :: .word name :: .mark '=' :: value.tokens
  | .assign place value => .word place :: .mark '=' :: value.tokens
  | .run e => e.tokens
  | .give e => .word "return" :: e.tokens

/-- The names in a statement are words, the first one is not `return`, and what is run
is a call. -/
def Statement.IsPlain : Statement → Prop
  | .declare type name value => type ≠ "return" ∧ IsPath type ∧ IsPath name ∧ value.IsPlain
  | .assign place value => place ≠ "return" ∧ IsPath place ∧ value.IsPlain
  | .run e => (∃ f args, e = .call f args ∧ f ≠ "return") ∧ e.IsPlain
  | .give e => e.IsPlain

/-- An assignment and a declaration are scanned alike: a place, `=`, an expression and
`;`. -/
theorem scans_assigned {place : String} {e : Expr} (hplace : IsPath place) (he : e.IsPlain) :
    Scans .code ((place ++ " = " ++ e.source ++ ";").toList)
      (.word place :: .mark '=' :: e.tokens ++ [.mark ';']) .code := by
  have hname := (spells_word hplace).append fun m hm => scans_space hm
  have hsign := (hname.append (scans_mark (.inl rfl) (c := '=') rfl)).append (scans_space (.inl rfl))
  have hvalue := (spells_source e he).append fun m hm => scans_mark hm (c := ';') rfl
  simpa using hsign.append hvalue

/-- Every statement of plain words is scanned into its tokens and the semicolon behind it. -/
theorem scans_statement {s : Statement} (h : s.IsPlain) :
    Scans .code s.source.toList (s.tokens ++ [.mark ';']) .code := by
  cases s with
  | declare type name value =>
      obtain ⟨-, htype, hname, hvalue⟩ := h
      have hdeclared := (spells_word htype).append fun m hm => scans_space hm
      simpa [Statement.source, Statement.tokens] using
        hdeclared.append (scans_assigned hname hvalue)
  | assign place value =>
      obtain ⟨-, hplace, hvalue⟩ := h
      exact scans_assigned hplace hvalue
  | run e =>
      have hrun := (spells_source e h.2).append fun m hm => scans_mark hm (c := ';') rfl
      simpa [Statement.source, Statement.tokens] using hrun
  | give e =>
      have hreturn := (spells_word (s := "return") (by decide)).append fun m hm => scans_space hm
      have hgive := (spells_source e h).append fun m hm => scans_mark hm (c := ';') rfl
      simpa [Statement.source, Statement.tokens] using hreturn.append hgive

/-- The reader gets the statement back, which form of the four it has is told by its
tokens. -/
theorem readStatement_tokens {s : Statement} (h : s.IsPlain) :
    readStatement s.tokens = some s := by
  cases s with
  | declare type name value =>
      simp [Statement.tokens, readStatement, readExpr_tokens, h.1]
  | assign place value =>
      simp [Statement.tokens, readStatement, readExpr_tokens, h.1]
  | run e =>
      obtain ⟨⟨f, args, rfl, hf⟩, -⟩ := h
      have htokens : (Expr.call f args).tokens =
          .word f :: .mark '(' :: (Expr.argTokens args ++ [.mark ')']) := by rw [Expr.tokens]
      have hread := readExpr_tokens (.call f args)
      rw [Statement.tokens]
      rw [htokens] at hread ⊢
      simp [readStatement, hread, hf]
  | give e =>
      simp [Statement.tokens, readStatement, readExpr_tokens]

mutual

/-- No expression has a semicolon among its tokens: one in a literal stays inside it. -/
theorem semicolon_not_mem_tokens : ∀ e : Expr, .mark ';' ∉ e.tokens
  | .verbatim s | .text s => by simp [Expr.tokens]
  | .call f args => by simp [Expr.tokens, semicolon_not_mem_argTokens args]

/-- Nor has an argument list. -/
theorem semicolon_not_mem_argTokens : ∀ args : List Expr, .mark ';' ∉ Expr.argTokens args
  | [] => by simp [Expr.argTokens]
  | [e] => by
      rw [Expr.argTokens]
      exact semicolon_not_mem_tokens e
  | e :: e' :: more => by
      have hmore := semicolon_not_mem_argTokens (e' :: more)
      simp [Expr.argTokens_cons_cons, semicolon_not_mem_tokens e, hmore]

end

/-- So a semicolon always separates two statements of a body. -/
theorem semicolon_not_mem_statement (s : Statement) : .mark ';' ∉ s.tokens := by
  cases s <;> simp [Statement.tokens, semicolon_not_mem_tokens]

/-! ## lists -/

/-- Reading element by element undoes writing element by element. -/
theorem mapM_readback {α β : Type} {write : α → β} {read : β → Option α} (xs : List α)
    (h : ∀ x ∈ xs, read (write x) = some x) : (xs.map write).mapM read = some xs := by
  induction xs with
  | nil => rfl
  | cons x xs ih =>
      rw [List.forall_mem_cons] at h
      rw [List.map_cons, List.mapM_cons, h.1, ih h.2]
      rfl

/-- Single tokens put one behind the other are the list of them. -/
theorem intercalate_singletons {α β : Type} (f : α → β) :
    ∀ xs : List α, [].intercalate (xs.map fun x => [f x]) = xs.map f
  | [] | [_] => rfl
  | x :: y :: more => by
      have hmore := intercalate_singletons f (y :: more)
      rw [List.map_cons] at hmore
      rw [List.map_cons, List.map_cons, List.intercalate_cons_cons, hmore]
      rfl

/-- What stands in an intercalated list is a separator or stands in a part. -/
theorem mem_of_mem_intercalate {α : Type} {sep : List α} {x : α} :
    ∀ {xss : List (List α)}, x ∈ sep.intercalate xss → x ∈ sep ∨ ∃ xs ∈ xss, x ∈ xs
  | [], h => by simp at h
  | [xs], h => .inr ⟨xs, by simp, by simpa using h⟩
  | xs :: ys :: more, h => by
      simp only [List.intercalate_cons_cons, List.mem_append] at h
      obtain (h | h) | h := h
      · exact .inr ⟨xs, by simp, h⟩
      · exact .inl h
      · obtain h | ⟨zs, hzs, h⟩ := mem_of_mem_intercalate h
        · exact .inl h
        · exact .inr ⟨zs, List.mem_cons_of_mem _ hzs, h⟩

/-! ## parameters and bodies -/

def Param.tokens (p : Param) : List Token := [.word p.type, .word p.name]

def paramTokens (ps : List Param) : List Token := [.mark ','].intercalate (ps.map Param.tokens)

/-- A parameter is its type and its name, two words. -/
theorem spells_param {p : Param} (h : IsPath p.type ∧ IsPath p.name) :
    Spells p.source.toList p.tokens := by
  have htype := (spells_word h.1).append fun m hm => scans_space hm
  refine ⟨.word, .inr rfl, ?_⟩
  simpa [Param.source, Param.tokens] using htype.append (scans_word h.2)

/-- The parameters are scanned with the bracket that closes them, as arguments are. -/
theorem scans_params {ps : List Param} (h : ∀ p ∈ ps, IsPath p.type ∧ IsPath p.name) :
    Scans .code ((Text.joined ", " (ps.map Param.source)).toList ++ [')'])
      (paramTokens ps ++ [.mark ')']) .code :=
  have hcomma (m : Mode) (hm : m.IsCode) : Scans m ", ".toList [.mark ','] .code :=
    (scans_mark hm rfl).append (scans_space (.inl rfl))
  scans_joined Param.source Param.tokens hcomma (fun _ hm => scans_mark hm rfl) ps fun p hp =>
    spells_param (h p hp)

/-- The reader gets the parameters back from their tokens. -/
theorem readParams_tokens (ps : List Param) : readParams (paramTokens ps) = some ps := by
  cases ps with
  | nil => rfl
  | cons p ps =>
      have hne : paramTokens (p :: ps) ≠ [] := by
        cases ps <;> simp [paramTokens, Param.tokens]
      have hsplit : (paramTokens (p :: ps)).splitOn (.mark ',') = (p :: ps).map Param.tokens :=
        List.splitOn_intercalate _ (by simp [Param.tokens]) (by simp)
      rw [readParams, if_neg hne, hsplit]
      exact mapM_readback _ fun _ _ => rfl

/-- The parameter list has no bracket of its own, so the first one ends it. -/
theorem paren_not_mem_paramTokens {ps : List Param} {t : Token} (h : t ∈ paramTokens ps) :
    t ≠ .mark ')' := by
  obtain h | ⟨ts, hts, h⟩ := mem_of_mem_intercalate h
  · simp_all
  · obtain ⟨p, -, rfl⟩ := List.mem_map.mp hts
    simp only [Param.tokens, List.mem_cons, List.not_mem_nil, or_false] at h
    obtain rfl | rfl := h <;> simp

/-- The tokens of the statements of a method. -/
def bodyTokens (body : List Statement) : List Token :=
  body.flatMap fun s => s.tokens ++ [.mark ';']

/-- The lines of a body are scanned statement by statement. -/
theorem scans_body {body : List Statement} (h : ∀ s ∈ body, s.IsPlain) :
    Scans .code (String.join (body.map fun s => "    " ++ s.source ++ "\n")).toList
      (bodyTokens body) .code := by
  induction body with
  | nil => exact .nil _
  | cons s body ih =>
      rw [List.forall_mem_cons] at h
      have hspace := scans_space (.inl rfl)
      have hindent := (hspace.append hspace).append (hspace.append hspace)
      have hline := (hindent.append (scans_statement h.1)).append (scans_newline (.inl rfl))
      simpa [bodyTokens, String.join_cons] using hline.append (ih h.2)

/-- The reader takes a body apart at its semicolons and gets the statements back. -/
theorem readBody_tokens {body : List Statement} (h : ∀ s ∈ body, s.IsPlain) :
    readBody (bodyTokens body ++ [.mark '}']) = some body := by
  have htokens : bodyTokens body ++ [Token.mark '}'] =
      [Token.mark ';'].intercalate (body.map Statement.tokens ++ [[.mark '}']]) := by
    clear h
    induction body with
    | nil => rfl
    | cons s body ih =>
        obtain ⟨ts, more, hmore⟩ : ∃ ts more,
            body.map Statement.tokens ++ [[.mark '}']] = ts :: more :=
          List.exists_cons_of_ne_nil (by simp)
        rw [List.map_cons, List.cons_append, hmore, List.intercalate_cons_cons, ← hmore, ← ih]
        simp [bodyTokens]
  have hsplit : (bodyTokens body ++ [Token.mark '}']).splitOn (.mark ';') =
      body.map Statement.tokens ++ [[.mark '}']] := by
    rw [htokens]
    refine List.splitOn_intercalate _ ?_ (by simp)
    simp only [List.mem_append, List.mem_map, List.mem_singleton]
    rintro ts (⟨s, -, rfl⟩ | rfl)
    · exact semicolon_not_mem_statement s
    · simp
  rw [readBody, hsplit]
  simp only [List.reverse_append, List.reverse_cons, List.reverse_nil, List.nil_append,
    List.cons_append, List.reverse_reverse]
  exact mapM_readback _ fun s hs => readStatement_tokens (h s hs)

/-! ## methods -/

/-- A method with a result whose names are words and whose comment is closed. -/
structure Method.IsPlain (m : Method) : Prop where
  comment : FitsComment m.comment.toList
  modifiers : ∃ words, m.modifiers = Text.joined " " words ∧ ∀ word ∈ words, IsPath word
  result : ∃ type, m.result? = some type ∧ IsPath type
  name : IsPath m.name
  params : ∀ p ∈ m.params, IsPath p.type ∧ IsPath p.name
  body : ∀ s ∈ m.body, s.IsPlain

/-- The modifiers of a method, and the space behind them. -/
theorem scans_modifiers {words : List String} (h : ∀ word ∈ words, IsPath word) :
    Scans .code ((Text.joined " " words).toList ++ [' ']) (words.map .word) .code := by
  have hspace (m : Mode) (hm : m.IsCode) : Scans m " ".toList [] .code := scans_space hm
  have hwords := scans_joined id (fun word => [.word word]) hspace
    (fun _ hm => scans_space hm) words fun word hword => spells_word (h word hword)
  simpa [intercalate_singletons] using hwords

/-- The tokens of a method with modifiers and a result. -/
def Method.tokens (m : Method) (modifiers : List String) (type : String) : List Token :=
  modifiers.map .word ++ [.word type, .word m.name] ++ .mark '(' :: (paramTokens m.params ++
    .mark ')' :: .mark '{' :: (bodyTokens m.body ++ [.mark '}']))

/-- The text of a whole method is scanned to its tokens: the comment, the modifiers and
the body. -/
theorem tokens?_source {m : Method} (h : m.IsPlain) {words : List String} {type : String}
    (hmodifiers : m.modifiers = Text.joined " " words) (hwords : ∀ word ∈ words, IsPath word)
    (hresult : m.result? = some type) (htype : IsPath type) :
    tokens? m.source = some (m.tokens words type) := by
  have hcomment : Scans .code (if m.comment = "" then "" else blockComment "  " m.comment).toList
      [] .code := by
    split
    · exact .nil _
    · exact scans_blockComment h.comment
  have hspace := scans_space (.inl rfl)
  have hnewline := scans_newline (.inl rfl)
  have hheader := ((hcomment.append (hspace.append hspace)).append (scans_modifiers hwords)).append
    ((spells_word htype).append fun _ hm => scans_space hm)
  have hname := (spells_word h.name).append fun _ hm => scans_mark hm (c := '(') rfl
  have hopen := (hspace.append (scans_mark (.inl rfl) (c := '{') rfl)).append hnewline
  have hclose := ((hspace.append hspace).append (scans_mark (.inl rfl) (c := '}') rfl)).append
    hnewline
  have hall := (((hheader.append hname).append (scans_params h.params)).append hopen).append
    ((scans_body h.body).append hclose)
  have hsource : m.source.toList.foldlM Scan.step ⟨.code, []⟩ =
      some ⟨.code, (m.tokens words type).reverse⟩ := by
    rw [Method.source, hresult, hmodifiers]
    simpa [Method.tokens] using hall []
  rw [tokens?, hsource]
  exact congrArg some (List.reverse_reverse _)

/-- From the tokens of a method everything comes back but its comment. -/
theorem readMethod_tokens {m : Method} (h : m.IsPlain) (words : List String) (type : String) :
    readMethod (m.tokens words type) =
      some { m with comment := "", modifiers := Text.joined " " words, result? := some type } := by
  have hwords : ∀ t ∈ words.map Token.word ++ [.word type, .word m.name],
      (t != .mark '(') = true := by
    simp only [List.mem_append, List.mem_map, List.mem_cons, List.not_mem_nil, or_false]
    rintro t (⟨word, -, rfl⟩ | rfl | rfl) <;> simp
  have hparams : ∀ t ∈ paramTokens m.params, (t != .mark ')') = true := fun t ht => by
    simpa using paren_not_mem_paramTokens ht
  have hmodifiers : ((words.map Token.word).reverse).reverse.mapM readWord = some words := by
    rw [List.reverse_reverse]
    exact mapM_readback _ fun _ _ => rfl
  rw [readMethod, Method.tokens, List.takeWhile_append_of_pos hwords,
    List.dropWhile_append_of_pos hwords, List.takeWhile_cons_of_neg (by simp),
    List.dropWhile_cons_of_neg (by simp), List.append_nil, List.reverse_append]
  simp only [List.reverse_cons, List.reverse_nil, List.nil_append, List.cons_append]
  rw [List.takeWhile_append_of_pos hparams, List.dropWhile_append_of_pos hparams,
    List.takeWhile_cons_of_neg (by simp), List.dropWhile_cons_of_neg (by simp), List.append_nil]
  rw [hmodifiers, readParams_tokens]
  change (readBody (bodyTokens m.body ++ [.mark '}'])).bind _ = _
  rw [readBody_tokens h.body]
  rfl

/-- **A plain method is read back**, all but its comment. -/
theorem read_source {m : Method} (h : m.IsPlain) :
    read? m.source = some { m with comment := "" } := by
  obtain ⟨words, hmodifiers, hwords⟩ := h.modifiers
  obtain ⟨type, hresult, htype⟩ := h.result
  rw [read?, tokens?_source h hmodifiers hwords hresult htype, Option.bind_some,
    readMethod_tokens h, ← hmodifiers, ← hresult]

end BindingSynthesis.Java
