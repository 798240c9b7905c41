import BindingSynthesis.Json.Record
import BindingSynthesis.Proofs.JsonText

/-!
# BindingSynthesis.Proofs.JsonNumbers

The natural numbers of a JSON text fit into a machine word.

```
text  ──tokens──▶  tokens  ──readValue──▶  reading  ──decoder──▶  value
```

1. A natural number is scanned only below `2 ^ 64`, so every token of a text fits
   (`allFit_tokens`).
2. The reader makes its values of tokens and of nothing else, so the reading of a
   text fits (`fits_read`).
3. A decoder that yields a property of fitting readings yields it of texts
   (`Decoder.Yields.decode`); lists and records yield what their parts do.
-/

namespace BindingSynthesis.Json

/-! ## tokens -/

/-- The number is no natural number, or one below `2 ^ 64`. -/
def Number.Fits : Number → Prop
  | .natural n => n < UInt64.size
  | .other | .excessive => True

/-- Every number in the reading fits. -/
inductive Reading.Fits : Reading → Prop
  | null : Fits .null
  | bool (b : Bool) : Fits (.bool b)
  | number {n : Number} (h : n.Fits) : Fits (.number n)
  | string (s : Quoted) : Fits (.string s)
  | array {deep : Bool} {items : List Reading} {closing : Closing} (h : ∀ v ∈ items, Fits v) :
    Fits (.array deep items closing)
  | object {deep : Bool} {members : List (Quoted × Reading)} {closing : Closing}
    (h : ∀ m ∈ members, Fits m.2) : Fits (.object deep members closing)
  | broken (b : Break) : Fits (.broken b)
  | cut (b : Break) : Fits (.cut b)

/-- Every number in the token fits. -/
def Token.Fits : Token → Prop
  | .word v => v.Fits
  | .number n => n.Fits
  | _ => True

/-- All of these tokens fit. -/
def AllFit (ts : List Token) : Prop := ∀ t ∈ ts, t.Fits

/-- A whole number is only made when it fits, any other text gives another kind. -/
theorem Number.fits_ofParts (negative : Bool) (whole : List Char) (fraction? : Option (List Char))
    (exponent? : Option Int) : (ofParts negative whole fraction? exponent?).Fits := by
  rw [ofParts]
  split
  · next h => exact h.2.2.2
  · split <;> trivial

/-- So every number that is scanned fits. -/
theorem fits_of_scanNumber {cs rest : List Char} {n : Number} (h : scanNumber cs = .ok (n, rest)) :
    n.Fits := by
  unfold scanNumber at h
  split at h
  obtain ⟨⟨whole, afterWhole⟩, -, h⟩ := bind_eq_ok.mp h
  obtain ⟨⟨fraction?, afterFraction⟩, -, h⟩ := bind_eq_ok.mp h
  obtain ⟨⟨exponent?, rest'⟩, -, h⟩ := bind_eq_ok.mp h
  cases h
  exact Number.fits_ofParts ..

/-- The other tokens carry no number at all. -/
theorem fits_scanToken (c : Char) (rest : List Char) : (scanToken c rest).1.Fits := by
  have hcase {p : Prop} [Decidable p] {x y : Token × List Char} (hx : x.1.Fits) (hy : y.1.Fits) :
      (if p then x else y).1.Fits := by
    split <;> assumption
  have hstring : (scanString rest).token.Fits := by
    rw [StringScan.token]
    split <;> trivial
  refine hcase trivial <| hcase trivial <| hcase trivial <| hcase trivial <| hcase trivial <|
    hcase trivial <| hcase hstring <| hcase ?null <| hcase ?true <| hcase ?false <|
    hcase ?number trivial
  case number =>
    split
    · next h => exact fits_of_scanNumber h
    · trivial
  all_goals
    dsimp only
    split
    · first | exact .null | exact .bool _
    · trivial

/-- Token by token, all the tokens of a text fit. -/
theorem allFit_scanTokens (fuel : Nat) (cs : List Char) : AllFit (scanTokens fuel cs) := by
  induction fuel generalizing cs with
  | zero => exact nofun
  | succ fuel ih =>
      cases cs with
      | nil => exact nofun
      | cons c rest =>
          rw [scanTokens]
          split
          · exact ih rest
          · exact List.forall_mem_cons.mpr ⟨fits_scanToken c rest, ih _⟩

theorem allFit_tokens (cs : List Char) : AllFit (tokens cs) := allFit_scanTokens cs.length cs

/-! ## readings -/

/-- Closing a bracket takes tokens away and adds none. -/
theorem allFit_closeWith {isEnd : Token → Bool} {ts : List Token} (h : AllFit ts) :
    AllFit (closeWith isEnd ts).2 := by
  rw [closeWith.eq_def]
  split
  · exact nofun
  · split
    · exact (List.forall_mem_cons.mp h).2
    · exact nofun

mutual

/-- **A value is made of its tokens**: if these fit, so does the value, and so do the
tokens behind it. -/
theorem fits_readValue (fuel level : Nat) {ts : List Token} (h : AllFit ts) :
    (readValue fuel level ts).1.Fits ∧ AllFit (readValue fuel level ts).2 := by
  match fuel, ts with
  | 0, _ => exact ⟨.broken _, nofun⟩
  | _ + 1, [] => exact ⟨.broken _, nofun⟩
  | fuel + 1, t :: rest =>
      obtain ⟨ht, hrest⟩ := List.forall_mem_cons.mp h
      cases t with
      | word v => exact ⟨ht, hrest⟩
      | number n => exact ⟨.number ht, hrest⟩
      | string s => exact ⟨.string s, hrest⟩
      | brokenString b => exact ⟨.broken b, nofun⟩
      | broken b => exact ⟨.cut b, nofun⟩
      | endArray | endObject | colon | comma => exact ⟨.broken _, nofun⟩
      | beginArray =>
          obtain ⟨hitems, hafter⟩ := fits_readItems fuel (level + 1) hrest
          simp only [readValue]
          split
          · exact ⟨.array nofun, nofun⟩
          · exact ⟨.array nofun, (List.forall_mem_cons.mp hrest).2⟩
          · exact ⟨.array hitems, hafter⟩
      | beginObject =>
          obtain ⟨hmembers, hafter⟩ := fits_readMembers fuel (level + 1) hrest
          simp only [readValue]
          split
          · exact ⟨.object nofun, nofun⟩
          · exact ⟨.object nofun, (List.forall_mem_cons.mp hrest).2⟩
          · exact ⟨.object hmembers, hafter⟩
          · exact ⟨.object nofun, nofun⟩
          · exact ⟨.object nofun, nofun⟩

/-- The items of an array fit, and so do the tokens left for what is around it. -/
theorem fits_readItems (fuel level : Nat) {ts : List Token} (h : AllFit ts) :
    (∀ v ∈ (readItems fuel level ts).1, v.Fits) ∧ AllFit (readItems fuel level ts).2.2 := by
  match fuel with
  | 0 => exact ⟨nofun, nofun⟩
  | fuel + 1 =>
      obtain ⟨hvalue, hrest⟩ := fits_readValue fuel level h
      rw [readItems]
      dsimp only
      split
      · next rest heq =>
          rw [heq] at hrest
          obtain ⟨hitems, hafter⟩ := fits_readItems fuel level (List.forall_mem_cons.mp hrest).2
          exact ⟨List.forall_mem_cons.mpr ⟨hvalue, hitems⟩, hafter⟩
      · exact ⟨List.forall_mem_singleton.mpr hvalue, allFit_closeWith hrest⟩

/-- The same for the values of an object. -/
theorem fits_readMembers (fuel level : Nat) {ts : List Token} (h : AllFit ts) :
    (∀ m ∈ (readMembers fuel level ts).1, m.2.Fits) ∧ AllFit (readMembers fuel level ts).2.2 := by
  rw [readMembers.eq_def]
  split
  · next fuel key ts =>
      obtain ⟨-, hcolon⟩ := List.forall_mem_cons.mp h
      obtain ⟨hvalue, hrest⟩ := fits_readValue fuel level (List.forall_mem_cons.mp hcolon).2
      dsimp only
      split
      · next rest heq =>
          rw [heq] at hrest
          obtain ⟨hmembers, hafter⟩ := fits_readMembers fuel level (List.forall_mem_cons.mp hrest).2
          exact ⟨List.forall_mem_cons.mpr ⟨hvalue, hmembers⟩, hafter⟩
      · exact ⟨List.forall_mem_singleton.mpr hvalue, allFit_closeWith hrest⟩
  · exact ⟨List.forall_mem_singleton.mpr (.broken _), nofun⟩
  · exact ⟨nofun, nofun⟩

end

/-- **The reading of a text fits**. -/
theorem fits_read (text : String) : (read text).1.Fits :=
  (fits_readValue (2 * (tokens text.toList).length + 1) 0 (allFit_tokens text.toList)).1

/-! ## decoders -/

/-- What the decoder makes of fitting readings has the property. -/
def Decoder.Yields {α : Type} (d : Decoder α) (P : α → Prop) : Prop :=
  ∀ v a, v.Fits → d v = .ok a → P a

namespace Decoder

variable {α : Type}

/-- **A property of fitting readings is one of texts**. -/
theorem Yields.decode {d : Decoder α} {P : α → Prop} (h : d.Yields P) {text : String} {a : α}
    (hdecode : Json.decode d text = .ok a) : P a := by
  rw [Json.decode] at hdecode
  dsimp only at hdecode
  split at hdecode
  · cases hdecode
  · next b hb =>
      split at hdecode
      · cases hdecode
      · cases hdecode
        exact h _ _ (fits_read text) hb

/-- Of any decoder at least nothing is known. -/
theorem yields_true (d : Decoder α) : d.Yields fun _ => True := fun _ _ _ _ => trivial

/-- The number decoder gives what the scanner let through, hence less than the bound. -/
theorem yields_natural : natural.Yields (· < UInt64.size) := by
  intro v n hv hn
  rw [natural.eq_def] at hn
  split at hn
  · cases hn
    cases hv with
    | number h => exact h
  · cases hn

/-- Decoding a list gives nothing that its items could not give. -/
theorem Yields.each {d : Decoder α} {P : α → Prop} (h : d.Yields P) {items : List Reading}
    {as : List α} (hitems : ∀ v ∈ items, v.Fits) (heach : Decoder.each d items = .ok as) :
    ∀ a ∈ as, P a := by
  induction items generalizing as with
  | nil =>
      cases heach
      exact nofun
  | cons v items ih =>
      rw [List.forall_mem_cons] at hitems
      obtain ⟨a, ha, heach⟩ := bind_eq_ok.mp heach
      obtain ⟨rest, hrest, heach⟩ := bind_eq_ok.mp heach
      cases heach
      exact List.forall_mem_cons.mpr ⟨h v a hitems.1 ha, ih hitems.2 hrest⟩

/-- So does decoding an array. -/
theorem Yields.list {d : Decoder α} {P : α → Prop} (h : d.Yields P) :
    (Decoder.list d).Yields fun as => ∀ a ∈ as, P a := by
  intro v as hv hlist
  rw [Decoder.list.eq_def] at hlist
  split at hlist
  · obtain ⟨bs, hbs, hlist⟩ := bind_eq_ok.mp hlist
    obtain ⟨-, -, hlist⟩ := bind_eq_ok.mp hlist
    cases hlist
    cases hv with
    | array hitems => exact h.each hitems hbs
  · cases hlist

end Decoder

/-! ## records -/

namespace Fields

variable {α β : Type}

/-- The states that the fields reach on fitting readings keep an invariant, and what is
finished from it has the property. -/
structure Keeps (f : Fields α) (I : f.State → Prop) (P : α → Prop) : Prop where
  start : I f.start
  member : ∀ st name v st', I st → v.Fits → f.member st name v = some (.ok st') → I st'
  items : ∀ st vs closing st' rest, I st → (∀ v ∈ vs, v.Fits) →
    f.items st vs closing = .ok (st', rest) → I st' ∧ ∀ v ∈ rest, v.Fits
  finish : ∀ st a, I st → f.finish st = .ok a → P a

/-- What the fields make of fitting readings has the property. -/
def Yields (f : Fields α) (P : α → Prop) : Prop := ∃ I, f.Keeps I P

/-- A mapped result succeeds just when the result does. -/
theorem map_eq_ok {ε γ δ : Type} {x : Except ε γ} {f : γ → δ} {b : δ} :
    x.map f = .ok b ↔ ∃ a, x = .ok a ∧ f a = b := by
  cases x <;> simp [Except.map]

/-- A field yields what its decoder does, if its defaults are of that kind. -/
theorem yields_single (names : List String) {d : Decoder α} {absent unlisted : Option α}
    {P : α → Prop} (h : d.Yields P) (habsent : ∀ a ∈ absent, P a)
    (hunlisted : ∀ a ∈ unlisted, P a) : (single names d absent unlisted).Yields P := by
  refine ⟨fun seen : Option α => ∀ a ∈ seen, P a, ⟨nofun, ?_, ?_, ?_⟩⟩
  · intro seen name v seen' _ hv hmember
    dsimp only [single] at hmember
    split at hmember
    · split at hmember
      · cases hmember
      · obtain ⟨a, ha, rfl⟩ := map_eq_ok.mp (Option.some.inj hmember)
        intro b hb
        cases hb
        exact h v a hv ha
    · cases hmember
  · intro seen vs closing seen' rest _ hvs hitems
    dsimp only [single] at hitems
    split at hitems
    · rw [List.forall_mem_cons] at hvs
      obtain ⟨a, ha, heq⟩ := map_eq_ok.mp hitems
      cases heq
      refine ⟨fun b hb => ?_, hvs.2⟩
      cases hb
      exact h _ a hvs.1 ha
    · split at hitems
      · cases hitems
      · split at hitems
        · cases hitems
          exact ⟨hunlisted, nofun⟩
        · cases hitems
  · intro seen a hseen hfinish
    dsimp only [single] at hfinish
    split at hfinish
    · next b hb =>
        cases hfinish
        obtain hseen' | ⟨-, habsent'⟩ := Option.or_eq_some_iff.mp hb
        · exact hseen _ hseen'
        · exact habsent _ habsent'
    · cases hfinish

/-- A default has to satisfy the property itself, since no decoder made it. -/
theorem yields_withDefault (name : String) {d : Decoder α} {P : α → Prop} {a : α}
    (h : d.Yields P) (ha : P a) : (withDefault name d a).Yields P :=
  yields_single [name] h (by simpa using ha) (by simpa using ha)

/-- A property is carried over by what is made of the fields. -/
theorem Yields.map {f : Fields α} {P : α → Prop} {Q : β → Prop} (h : f.Yields P) {make : α → β}
    (hmake : ∀ a, P a → Q (make a)) : (make <$> f).Yields Q := by
  obtain ⟨I, hkeeps⟩ := h
  refine ⟨I, hkeeps.start, hkeeps.member, hkeeps.items, fun st b hst hfinish => ?_⟩
  obtain ⟨a, ha, rfl⟩ := map_eq_ok.mp hfinish
  exact hmake a (hkeeps.finish st a hst ha)

/-- **Two records yield together** what is made of what each yields. -/
theorem Yields.seq {f : Fields (α → β)} {g : Fields α} {P : (α → β) → Prop} {Q : α → Prop}
    {R : β → Prop} (hf : f.Yields P) (hg : g.Yields Q)
    (hmake : ∀ make a, P make → Q a → R (make a)) : (f <*> g).Yields R := by
  obtain ⟨I, hI⟩ := hf
  obtain ⟨J, hJ⟩ := hg
  refine ⟨fun st => I st.1 ∧ J st.2, ⟨⟨hI.start, hJ.start⟩, ?_, ?_, ?_⟩⟩
  · rintro ⟨s, t⟩ name v st' ⟨hs, ht⟩ hv hmember
    change (both f g).member (s, t) name v = _ at hmember
    dsimp only [both] at hmember
    split at hmember
    · next r hr =>
        obtain ⟨s', rfl, rfl⟩ := map_eq_ok.mp (Option.some.inj hmember)
        exact ⟨hI.member s name v s' hs hv hr, ht⟩
    · obtain ⟨r, hr, hmap⟩ := Option.map_eq_some_iff.mp hmember
      obtain ⟨t', rfl, rfl⟩ := map_eq_ok.mp hmap
      exact ⟨hs, hJ.member t name v t' ht hv hr⟩
  · rintro ⟨s, t⟩ vs closing st' rest ⟨hs, ht⟩ hvs hitems
    change (both f g).items (s, t) vs closing = _ at hitems
    obtain ⟨⟨s', rest'⟩, hfirst, hitems⟩ := bind_eq_ok.mp hitems
    obtain ⟨⟨t', rest''⟩, hsecond, hitems⟩ := bind_eq_ok.mp hitems
    cases hitems
    obtain ⟨hs', hrest'⟩ := hI.items s vs closing s' rest' hs hvs hfirst
    obtain ⟨ht', hrest''⟩ := hJ.items t rest' closing t' _ ht hrest' hsecond
    exact ⟨⟨hs', ht'⟩, hrest''⟩
  · rintro ⟨s, t⟩ b ⟨hs, ht⟩ hfinish
    obtain ⟨⟨make, a⟩, hboth, rfl⟩ := map_eq_ok.mp hfinish
    obtain ⟨make', hmake', hboth⟩ := bind_eq_ok.mp hboth
    obtain ⟨a', ha', hboth⟩ := bind_eq_ok.mp hboth
    cases hboth
    exact hmake _ _ (hI.finish s _ hs hmake') (hJ.finish t _ ht ha')

/-- An invariant that each member keeps holds after all of them. -/
theorem Keeps.members {f : Fields α} {I : f.State → Prop} {P : α → Prop} (h : f.Keeps I P)
    {st st' : f.State} {ms : List (Quoted × Reading)} (hst : I st) (hms : ∀ m ∈ ms, m.2.Fits)
    (hmembers : f.members st ms = .ok st') : I st' := by
  induction ms generalizing st with
  | nil =>
      cases hmembers
      exact hst
  | cons m ms ih =>
      obtain ⟨key, v⟩ := m
      rw [List.forall_mem_cons] at hms
      rw [Fields.members] at hmembers
      split at hmembers
      · cases hmembers
      · split at hmembers
        · next next hmember => exact ih (h.member st _ v _ hst hms.1 hmember) hms.2 hmembers
        · cases hmembers
        · obtain ⟨-, -, hmembers⟩ := bind_eq_ok.mp hmembers
          exact ih hst hms.2 hmembers

/-- **A record yields what its fields do**, whether it is written as an object or as an
array. -/
theorem Yields.decode {f : Fields α} {P : α → Prop} (h : f.Yields P) : f.decode.Yields P := by
  obtain ⟨I, hkeeps⟩ := h
  intro v a hv hdecode
  rw [Fields.decode.eq_def] at hdecode
  split at hdecode
  · obtain ⟨st, hst, hdecode⟩ := bind_eq_ok.mp hdecode
    obtain ⟨-, -, hfinish⟩ := bind_eq_ok.mp hdecode
    cases hv with
    | object hmembers => exact hkeeps.finish st a (hkeeps.members hkeeps.start hmembers hst) hfinish
  · obtain ⟨⟨st, rest⟩, hst, hdecode⟩ := bind_eq_ok.mp hdecode
    cases hv with
    | array hitems =>
        have hkept := (hkeeps.items f.start _ _ st rest hkeeps.start hitems hst).1
        dsimp only at hdecode
        split at hdecode
        · obtain ⟨-, -, hfinish⟩ := bind_eq_ok.mp hdecode
          exact hkeeps.finish st a hkept hfinish
        · cases hdecode
  · cases hdecode

end Fields

end BindingSynthesis.Json
