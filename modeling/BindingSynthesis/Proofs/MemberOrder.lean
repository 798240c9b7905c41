import BindingSynthesis.Proofs.JsonRecords
import Mathlib.Data.List.Forall2

/-!
# BindingSynthesis.Proofs.MemberOrder

The members of an object may stand in any order, and among unknown ones.

```
members   m₁ m₂ … mₙ        read as a record
kept      m₁' m₂' … mₙ'     each read as the one above it
grown     the kept members and unknown ones, in any order
```

1. Two members that a record takes one after the other can be taken in the other order:
   each field takes one member at most, and a member that no field has is only read over
   (`Orderless.take_swap`).
2. So a record reads every arrangement of its members alike (`members_perm`).
3. Members without a field, and values that are decoded alike, change nothing either
   (`Orderless.decode_follows`).
-/

namespace BindingSynthesis.Json

/-- What the decoder reads from the first value it also reads from the second. -/
def Decoder.Follows {α : Type} (d : Decoder α) (v v' : Reading) : Prop :=
  ∀ a, d v = .ok a → d v' = .ok a

/-- A list whose items can be read one by one is read as the same list. -/
theorem Decoder.each_follows {α : Type} {d : Decoder α} {items items' : List Reading}
    (h : List.Forall₂ d.Follows items items') {as : List α} (heach : each d items = .ok as) :
    each d items' = .ok as := by
  induction h generalizing as with
  | nil => exact heach
  | cons hfirst _ ih =>
      obtain ⟨a, ha, heach⟩ := bind_eq_ok.mp heach
      obtain ⟨more, hmore, heach⟩ := bind_eq_ok.mp heach
      rw [each, hfirst a ha, ih hmore]
      exact heach

/-- Lists are decoded alike if their elements are. -/
theorem Decoder.list_follows {α : Type} {d : Decoder α} {items items' : List Reading}
    (h : List.Forall₂ d.Follows items items') (deep deep' : Bool) :
    (Decoder.list d).Follows (.array deep items .closed) (.array deep' items' .closed) := by
  intro as hlist
  obtain ⟨bs, hbs, hlist⟩ := bind_eq_ok.mp hlist
  rw [list, each_follows h hbs]
  exact hlist

namespace Fields

variable {α β : Type}

/-! ## one member after the other -/

/-- What the fields do with a member. -/
def take (f : Fields α) (st : f.State) (m : Quoted × Reading) : Except Fault f.State :=
  match m.1.text? with
  | none => .error .malformed
  | some name => match f.member st name m.2 with
    | some r => r
    | none => m.2.skip.map fun _ => st

/-- An object is read by one member after the other, from the start state. -/
theorem members_eq_foldlM (f : Fields α) (st : f.State) (ms : List (Quoted × Reading)) :
    f.members st ms = ms.foldlM f.take st := by
  induction ms generalizing st with
  | nil => rfl
  | cons m ms ih =>
      obtain ⟨⟨text?⟩, v⟩ := m
      rw [members, List.foldlM_cons, take]
      cases text? with
      | none => rfl
      | some name =>
          dsimp only
          cases f.member st name v with
          | none =>
              cases v.skip with
              | error e => rfl
              | ok u => exact ih st
          | some r =>
              cases r with
              | error e => rfl
              | ok st' => exact ih st'

/-- A member is taken by a field that has its name, or read over. -/
theorem take_eq_ok {f : Fields α} {st st' : f.State} {m : Quoted × Reading} :
    f.take st m = .ok st' ↔ ∃ name, m.1 = ⟨some name⟩ ∧
      (f.member st name m.2 = some (.ok st') ∨
        f.member st name m.2 = none ∧ m.2.skip = .ok () ∧ st' = st) := by
  obtain ⟨⟨text?⟩, v⟩ := m
  cases text? with
  | none => simp [take]
  | some name =>
      have htake : f.take st (⟨some name⟩, v) = match f.member st name v with
        | some r => r
        | none => v.skip.map fun _ => st := rfl
      rw [htake]
      cases hmember : f.member st name v with
      | none => cases v.skip <;> simp [Except.map, hmember, eq_comm]
      | some r => simp [hmember]

/-! ## the order of the members -/

/-- Which members have a field does not depend on those before, and the fields of two
members take them in either order. -/
structure Orderless (f : Fields α) : Prop where
  ignores : ∀ st name v, f.member st name v = none → f.Ignores name
  swap : ∀ st s s' name v name' v', f.member st name v = some (.ok s) →
    f.member s name' v' = some (.ok s') →
    ∃ t, f.member st name' v' = some (.ok t) ∧ f.member t name v = some (.ok s')

/-- A field that takes a member takes it as its first one. -/
theorem single_member_eq_ok {names : List String} {d : Decoder α} {absent unlisted : Option α}
    {st st' : Option α} {name : String} {v : Reading} :
    (single names d absent unlisted).member st name v = some (.ok st') ↔
      name ∈ names ∧ st = none ∧ ∃ a, d v = .ok a ∧ st' = some a := by
  simp only [single]
  split
  · next hname =>
      cases st with
      | some a => simp
      | none => cases d v <;> simp [Except.map, hname, eq_comm]
  · next hname => simp [hname]

/-- A single field has one slot, and a second member for it is an error in either order. -/
theorem orderless_single (names : List String) (d : Decoder α) (absent unlisted : Option α) :
    (single names d absent unlisted).Orderless := by
  constructor
  · intro st name v h
    rw [ignores_single]
    intro hname
    simp [single, hname] at h
  · intro st s s' name v name' v' h h'
    obtain ⟨-, -, a, -, rfl⟩ := single_member_eq_ok.mp h
    obtain ⟨-, hnone, -⟩ := single_member_eq_ok.mp h'
    cases hnone

/-- The default matters only at the end, so it brings no order. -/
theorem orderless_withDefault (name : String) (d : Decoder α) (a : α) :
    (withDefault name d a).Orderless := orderless_single ..

/-- Nor does what is made of the fields. -/
theorem Orderless.map {f : Fields α} (h : f.Orderless) (make : α → β) :
    (make <$> f).Orderless := ⟨h.ignores, h.swap⟩

/-- Two decoders pass a member by when both of them do. -/
theorem both_member_eq_none {f : Fields α} {g : Fields β} {st : f.State × g.State}
    {name : String} {v : Reading} :
    (both f g).member st name v = none ↔
      f.member st.1 name v = none ∧ g.member st.2 name v = none := by
  simp only [both]
  cases f.member st.1 name v <;> simp

/-- Otherwise the left decoder has the first say, and the state of the other one is kept. -/
theorem both_member_eq_ok {f : Fields α} {g : Fields β} {st st' : f.State × g.State}
    {name : String} {v : Reading} :
    (both f g).member st name v = some (.ok st') ↔
      (∃ s, f.member st.1 name v = some (.ok s) ∧ st' = (s, st.2)) ∨
        (f.member st.1 name v = none ∧ ∃ t, g.member st.2 name v = some (.ok t) ∧
          st' = (st.1, t)) := by
  simp only [both]
  cases f.member st.1 name v with
  | some r => cases r <;> simp [Except.map, eq_comm]
  | none =>
      cases g.member st.2 name v with
      | none => simp
      | some r => cases r <;> simp [Except.map, eq_comm]

/-- **The fields of two records take their members in either order**. -/
theorem Orderless.seq {f : Fields (α → β)} {g : Fields α} (hf : f.Orderless) (hg : g.Orderless) :
    (f <*> g).Orderless := by
  refine Orderless.map (f := both f g) ⟨?_, ?_⟩ fun p => p.1 p.2
  · intro st name v h
    obtain ⟨hfirst, hsecond⟩ := both_member_eq_none.mp h
    exact ignores_seq.mpr ⟨hf.ignores _ _ _ hfirst, hg.ignores _ _ _ hsecond⟩
  · rintro ⟨s, t⟩ st st' name v name' v' h h'
    -- each of the two members belongs to the first record or to the second one
    obtain ⟨s₁, hs₁, rfl⟩ | ⟨hnone, t₁, ht₁, rfl⟩ := both_member_eq_ok.mp h <;>
      obtain ⟨s₂, hs₂, rfl⟩ | ⟨hnone', t₂, ht₂, rfl⟩ := both_member_eq_ok.mp h'
    · obtain ⟨u, hu, hu'⟩ := hf.swap _ _ _ _ _ _ _ hs₁ hs₂
      exact ⟨(u, t), both_member_eq_ok.mpr (.inl ⟨u, hu, rfl⟩),
        both_member_eq_ok.mpr (.inl ⟨s₂, hu', rfl⟩)⟩
    · exact ⟨(s, t₂),
        both_member_eq_ok.mpr (.inr ⟨hf.ignores _ _ _ hnone' s v', t₂, ht₂, rfl⟩),
        both_member_eq_ok.mpr (.inl ⟨s₁, hs₁, rfl⟩)⟩
    · exact ⟨(s₂, t), both_member_eq_ok.mpr (.inl ⟨s₂, hs₂, rfl⟩),
        both_member_eq_ok.mpr (.inr ⟨hf.ignores _ _ _ hnone s₂ v, t₁, ht₁, rfl⟩)⟩
    · obtain ⟨u, hu, hu'⟩ := hg.swap _ _ _ _ _ _ _ ht₁ ht₂
      exact ⟨(s, u), both_member_eq_ok.mpr (.inr ⟨hnone', u, hu, rfl⟩),
        both_member_eq_ok.mpr (.inr ⟨hnone, t₂, hu', rfl⟩)⟩

/-- Two members that are taken one after the other can be taken the other way round. -/
theorem Orderless.take_swap {f : Fields α} (h : f.Orderless) {st s s' : f.State}
    {m m' : Quoted × Reading} (hm : f.take st m = .ok s) (hm' : f.take s m' = .ok s') :
    ∃ t, f.take st m' = .ok t ∧ f.take t m = .ok s' := by
  obtain ⟨name, hkey, hm⟩ := take_eq_ok.mp hm
  obtain ⟨name', hkey', hm'⟩ := take_eq_ok.mp hm'
  simp only [take_eq_ok, hkey, hkey', Quoted.mk.injEq, Option.some.injEq, exists_eq_left']
  -- a member that no field has leaves the state to the other one
  obtain hm | ⟨hm, hskip, rfl⟩ := hm <;> obtain hm' | ⟨hm', hskip', rfl⟩ := hm'
  · obtain ⟨t, ht, ht'⟩ := h.swap _ _ _ _ _ _ _ hm hm'
    exact ⟨t, .inl ht, .inl ht'⟩
  · exact ⟨st, .inr ⟨h.ignores _ _ _ hm' st m'.2, hskip', rfl⟩, .inl hm⟩
  · exact ⟨s', .inl hm', .inr ⟨h.ignores _ _ _ hm s' m.2, hskip, rfl⟩⟩
  · exact ⟨_, .inr ⟨hm', hskip', rfl⟩, .inr ⟨hm, hskip, rfl⟩⟩

/-- Steps that can be exchanged where they succeed can be taken in any order. -/
theorem foldlM_perm {σ μ ε : Type} (step : σ → μ → Except ε σ)
    (hswap : ∀ st s s' m m', step st m = .ok s → step s m' = .ok s' →
      ∃ t, step st m' = .ok t ∧ step t m = .ok s') {ms ms' : List μ} (h : ms.Perm ms')
    {st st' : σ} (hms : ms.foldlM step st = .ok st') : ms'.foldlM step st = .ok st' := by
  induction h generalizing st with
  | nil => exact hms
  | cons m _ ih =>
      rw [List.foldlM_cons] at hms ⊢
      obtain ⟨s, hs, hms⟩ := bind_eq_ok.mp hms
      exact bind_eq_ok.mpr ⟨s, hs, ih hms⟩
  | swap m m' ms =>
      simp only [List.foldlM_cons] at hms ⊢
      obtain ⟨s, hs, hms⟩ := bind_eq_ok.mp hms
      obtain ⟨s', hs', hms⟩ := bind_eq_ok.mp hms
      obtain ⟨t, ht, ht'⟩ := hswap _ _ _ _ _ hs hs'
      exact bind_eq_ok.mpr ⟨t, ht, bind_eq_ok.mpr ⟨s', ht', hms⟩⟩
  | trans _ _ ih ih' => exact ih' (ih hms)

/-- **A record reads its members in any order**. -/
theorem Orderless.members_perm {f : Fields α} (h : f.Orderless) {ms ms' : List (Quoted × Reading)}
    (hperm : ms.Perm ms') {st st' : f.State} (hms : f.members st ms = .ok st') :
    f.members st ms' = .ok st' := by
  rw [members_eq_foldlM] at hms ⊢
  exact foldlM_perm f.take (fun _ _ _ _ _ => h.take_swap) hperm hms

/-! ## members that are read alike -/

/-- The fields do with the second of two values of this name what they do with the first
one, unless they refuse that. -/
structure Follows (f : Fields α) (name : String) (v v' : Reading) : Prop where
  takes : ∀ st st', f.member st name v = some (.ok st') → f.member st name v' = some (.ok st')
  ignores : ∀ st, f.member st name v = none → f.member st name v' = none

/-- A member is always read as itself. -/
theorem Follows.refl (f : Fields α) (name : String) (v : Reading) : f.Follows name v v :=
  ⟨fun _ _ => id, fun _ => id⟩

/-- A single field asks for its decoder to follow only where the key is its own. -/
theorem follows_single {names : List String} {name : String} {d : Decoder α}
    {absent unlisted : Option α} {v v' : Reading} (h : name ∈ names → d.Follows v v') :
    (single names d absent unlisted).Follows name v v' := by
  constructor
  · intro st st' hmember
    obtain ⟨hname, hnone, a, ha, hst⟩ := single_member_eq_ok.mp hmember
    exact single_member_eq_ok.mpr ⟨hname, hnone, a, h hname a ha, hst⟩
  · intro st hmember
    have hignored := (orderless_single names d absent unlisted).ignores st name v hmember
    exact hignored st v'

/-- The same for a field with a default. -/
theorem follows_withDefault {name key : String} {d : Decoder α} {a : α} {v v' : Reading}
    (h : key = name → d.Follows v v') : (withDefault name d a).Follows key v v' :=
  follows_single fun hkey => h (List.mem_singleton.mp hkey)

/-- Under another key the value may be any other. -/
theorem follows_of_ne {name key : String} (h : key ≠ name) (d : Decoder α) (a : α)
    (v v' : Reading) : (withDefault name d a).Follows key v v' :=
  follows_withDefault fun heq => absurd heq h

/-- A mapped decoder follows where the decoder does. -/
theorem Follows.map {f : Fields α} {name : String} {v v' : Reading} (h : f.Follows name v v')
    (make : α → β) : (make <$> f).Follows name v v' := ⟨h.takes, h.ignores⟩

/-- Two decoders follow where each of them does. -/
theorem Follows.seq {f : Fields (α → β)} {g : Fields α} {name : String} {v v' : Reading}
    (h : f.Follows name v v') (h' : g.Follows name v v') : (f <*> g).Follows name v v' := by
  refine Follows.map (f := both f g) ⟨?_, ?_⟩ fun p => p.1 p.2
  · intro st st' hmember
    obtain ⟨s, hs, hst⟩ | ⟨hnone, t, ht, hst⟩ := both_member_eq_ok.mp hmember
    · exact both_member_eq_ok.mpr (.inl ⟨s, h.takes _ _ hs, hst⟩)
    · exact both_member_eq_ok.mpr (.inr ⟨h.ignores _ hnone, t, h'.takes _ _ ht, hst⟩)
  · intro st hmember
    obtain ⟨hfirst, hsecond⟩ := both_member_eq_none.mp hmember
    exact both_member_eq_none.mpr ⟨h.ignores _ hfirst, h'.ignores _ hsecond⟩

/-- The member is read over. -/
def ReadOver (f : Fields α) (m : Quoted × Reading) : Prop :=
  ∃ name, m.1 = ⟨some name⟩ ∧ f.Ignores name ∧ m.2.skip = .ok ()

/-- The members have the same key, and the second one is read as the first one is. -/
def Alike (f : Fields α) (m m' : Quoted × Reading) : Prop :=
  m.1 = m'.1 ∧ m'.2.skip = .ok () ∧ ∀ name, m.1 = ⟨some name⟩ → f.Follows name m.2 m'.2

/-- One member may be put in the place of another one like it. -/
theorem Alike.take {f : Fields α} {m m' : Quoted × Reading} (h : f.Alike m m')
    {st st' : f.State} (hm : f.take st m = .ok st') : f.take st m' = .ok st' := by
  obtain ⟨hkey, hskip, hfollows⟩ := h
  obtain ⟨name, hname, hm⟩ := take_eq_ok.mp hm
  refine take_eq_ok.mpr ⟨name, hkey ▸ hname, ?_⟩
  obtain hm | ⟨hm, -, hst⟩ := hm
  · exact .inl ((hfollows name hname).takes _ _ hm)
  · exact .inr ⟨(hfollows name hname).ignores _ hm, hskip, hst⟩

/-- Hence all of them at once, one by one in the same order. -/
theorem members_alike {f : Fields α} {ms kept : List (Quoted × Reading)}
    (hkept : List.Forall₂ f.Alike ms kept) {st st' : f.State}
    (hms : f.members st ms = .ok st') : f.members st kept = .ok st' := by
  rw [members_eq_foldlM] at hms ⊢
  induction hkept generalizing st with
  | nil => exact hms
  | cons hm _ ih =>
      rw [List.foldlM_cons] at hms ⊢
      obtain ⟨s, hs, hms⟩ := bind_eq_ok.mp hms
      exact bind_eq_ok.mpr ⟨s, hm.take hs, ih hms⟩

/-- Members that are read over leave the state as it is. -/
theorem members_readOver {f : Fields α} {extra : List (Quoted × Reading)}
    (h : ∀ m ∈ extra, f.ReadOver m) (st : f.State) : f.members st extra = .ok st := by
  rw [members_eq_foldlM]
  induction extra with
  | nil => rfl
  | cons m extra ih =>
      rw [List.forall_mem_cons] at h
      obtain ⟨name, hkey, hignored, hskip⟩ := h.1
      rw [List.foldlM_cons]
      refine bind_eq_ok.mpr ⟨st, ?_, ih h.2⟩
      exact take_eq_ok.mpr ⟨name, hkey, .inr ⟨hignored st m.2, hskip, rfl⟩⟩

/-- **A record reads an object with more members as before**: the old ones are kept, with
values that are read alike, the others are unknown, and their order is free. -/
theorem Orderless.decode_follows {f : Fields α} (h : f.Orderless)
    {ms kept extra ms' : List (Quoted × Reading)} (hkept : List.Forall₂ f.Alike ms kept)
    (hextra : ∀ m ∈ extra, f.ReadOver m) (hperm : ms'.Perm (kept ++ extra)) (deep deep' : Bool) :
    f.decode.Follows (.object deep ms .closed) (.object deep' ms' .closed) := by
  intro a hdecode
  obtain ⟨st, hst, hfinish⟩ := bind_eq_ok.mp hdecode
  have hboth : f.members f.start (kept ++ extra) = .ok st := by
    have hold := members_alike hkept hst
    have hnew := members_readOver hextra st
    rw [members_eq_foldlM] at hold hnew ⊢
    rw [List.foldlM_append, hold]
    exact hnew
  rw [decode, h.members_perm hperm.symm hboth]
  exact hfinish

end Fields

end BindingSynthesis.Json
