import BindingSynthesis.Machine.Tree

/-!
# BindingSynthesis.Proofs.Places

Where paths lead, and what writing leaves alone.

1. A path that leads anywhere leads to the place that its names spell
   (`place_of_resolve`); the names of a joined path follow those of the first
   (`placeFrom_join`).
2. Making directories and writing a file keep every directory, and every file but
   the written one (`Tree.Frame`).
3. So a path reads what it read before, unless its own place was written
   (`Tree.Frame.read`).
-/

namespace BindingSynthesis

open Text

/-! ## the place that a path spells -/

/-- The place behind one more name. -/
def Place.enter (place : Place) (name : String) : Place :=
  if name = "" ∨ name = "." then place
  else if name = ".." then place.tail
  else name :: place

/-- The place that the names of a path spell. -/
def Path.placeFrom (here : Place) (p : Path) : Place :=
  (segmentsOf '/' p.text).foldl Place.enter (if p.isAbsolute then [] else here)

/-- Splitting stops at every separator, so it splits both sides on their own. -/
theorem segments_append_separator (separator : Char) (xs ys : List Char) :
    segments separator (xs ++ separator :: ys) =
      segments separator xs ++ segments separator ys := by
  induction xs with
  | nil => simp [segments]
  | cons x xs ih =>
      rw [List.cons_append, segments, segments]
      split
      · rw [ih, List.cons_append]
      · rw [ih]
        cases hxs : segments separator xs with
        | nil => exact absurd hxs (segments_ne_nil separator xs)
        | cons piece more => rfl

/-- Text without a separator is one segment. -/
theorem segments_of_not_mem {separator : Char} {cs : List Char} (h : separator ∉ cs) :
    segments separator cs = [cs] := by
  induction cs with
  | nil => rfl
  | cons c cs ih =>
      rw [List.mem_cons, not_or] at h
      rw [segments, if_neg (Ne.symm h.1), ih h.2]

/-- The same for strings joined with a slash. -/
theorem segmentsOf_append_separator (s t : String) :
    segmentsOf '/' (s ++ "/" ++ t) = segmentsOf '/' s ++ segmentsOf '/' t := by
  simp [segmentsOf, segments_append_separator]

/-- A trailing slash leaves an empty segment behind it. -/
theorem segmentsOf_slash (s : String) : segmentsOf '/' (s ++ "/") = segmentsOf '/' s ++ [""] := by
  have h := segmentsOf_append_separator s ""
  rwa [String.append_empty] at h

/-- A name without a slash is one segment of a path. -/
theorem segmentsOf_of_not_mem {s : String} (h : '/' ∉ s.toList) : segmentsOf '/' s = [s] := by
  rw [segmentsOf, segments_of_not_mem h, List.map_singleton, String.ofList_toList]

namespace Path

variable (here : Place)

/-- Without a slash there is no leading one. -/
theorem isAbsolute_of_not_mem {s : String} (h : '/' ∉ s.toList) :
    (⟨s⟩ : Path).isAbsolute = false := by
  rw [isAbsolute, beq_eq_false_iff_ne]
  exact fun hhead => h (List.mem_of_head? hhead)

/-- Only the first character decides, so nothing appended to a path matters. -/
theorem isAbsolute_append {s : String} (t : String) (h : s ≠ "") :
    (⟨s ++ t⟩ : Path).isAbsolute = (⟨s⟩ : Path).isAbsolute := by
  obtain ⟨c, cs, hs⟩ := List.exists_cons_of_ne_nil fun e => h (String.toList_eq_nil_iff.mp e)
  simp only [isAbsolute, String.toList_append, hs]
  rfl

/-- What stands behind a slash is entered from where the text before it leads. -/
theorem placeFrom_behind_slash (s t : String) :
    placeFrom here ⟨s ++ "/" ++ t⟩ =
      (segmentsOf '/' t).foldl Place.enter (placeFrom here ⟨s ++ "/"⟩) := by
  rw [placeFrom, placeFrom, isAbsolute_append t (by simp), segmentsOf_append_separator,
    segmentsOf_slash, List.foldl_append, List.foldl_append]
  rfl

/-- A trailing slash leads nowhere else. -/
theorem placeFrom_slash {s : String} (h : s ≠ "") :
    placeFrom here ⟨s ++ "/"⟩ = placeFrom here ⟨s⟩ := by
  rw [placeFrom, placeFrom, isAbsolute_append _ h, segmentsOf_slash, List.foldl_append]
  rfl

/-- **The names of a joined path** follow those of the first path. -/
theorem placeFrom_join (p : Path) {q : Path} (hq : q.isAbsolute = false) :
    (p.join q).placeFrom here = (segmentsOf '/' q.text).foldl Place.enter (p.placeFrom here) := by
  obtain ⟨s⟩ := p
  rw [join, if_neg (by simp [hq])]
  split
  · next hlast =>
      have hs : s = "" := String.toList_eq_nil_iff.mp (List.getLast?_eq_none_iff.mp hlast)
      rw [hs, placeFrom, hq]
      rfl
  · next hlast =>
      obtain ⟨cs, hcs⟩ := List.getLast?_eq_some_iff.mp hlast
      have hs : s = String.ofList cs ++ "/" := by
        rw [← String.toList_inj, hcs]
        simp
      rw [hs, placeFrom_behind_slash]
  · next c hlast =>
      have hs : s ≠ "" := fun e => by simp [e] at hlast
      rw [placeFrom_behind_slash, placeFrom_slash here hs]

/-- A plain name leads one step further. -/
theorem placeFrom_join_name (p : Path) {name : String}
    (hslash : '/' ∉ name.toList) (hname : name ≠ "" ∧ name ≠ "." ∧ name ≠ "..") :
    (p.join ⟨name⟩).placeFrom here = name :: p.placeFrom here := by
  rw [placeFrom_join here p (isAbsolute_of_not_mem hslash), segmentsOf_of_not_mem hslash]
  simp [Place.enter, hname]

end Path

namespace Tree

/-- A step that succeeds goes where the name says. -/
theorem enter_of_step {t : Tree} {place next : Place} {name : String}
    (h : t.step place name = .ok next) : next = place.enter name := by
  rw [step] at h
  rw [Place.enter]
  split at h
  · cases h
  · cases h
  · split
    · next hstay => simpa [hstay] using h.symm
    · next hgo =>
        rw [if_neg hgo] at h
        split
        · next hup => simpa [hup] using h.symm
        · next hdown =>
            rw [if_neg hdown] at h
            split at h <;> cases h
            rfl

/-- A step can be taken out of a directory only. -/
theorem directory_of_step {t : Tree} {place next : Place} {name : String}
    (h : t.step place name = .ok next) : t.node? place = some .directory := by
  rw [step] at h
  split at h
  · cases h
  · cases h
  · assumption

/-- A walk that succeeds goes where its names say, one after the other. -/
theorem enter_of_walk {t : Tree} {place next : Place} {names : List String}
    (h : t.walk place names = .ok next) : next = names.foldl Place.enter place := by
  induction names generalizing place with
  | nil =>
      cases h
      rfl
  | cons name more ih =>
      rw [walk] at h
      split at h
      · next mid hstep => rw [List.foldl_cons, ← enter_of_step hstep, ih h]
      · cases h

/-- **A path leads where its names say**, if it leads anywhere. -/
theorem place_of_resolve {t : Tree} {here place : Place} {p : Path}
    (h : t.resolve here p = .ok place) : place = p.placeFrom here := by
  rw [resolve] at h
  split at h
  · cases h
  split at h
  · cases h
  split at h
  · cases h
  exact enter_of_walk h

/-- What can be read is the file at the place the path resolves to. -/
theorem file_of_read {t : Tree} {here : Place} {p : Path} {octets : List UInt8}
    (h : t.read here p = .ok octets) :
    ∃ place executable, t.resolve here p = .ok place ∧
      t.node? place = some (.file octets executable) := by
  rw [read, find] at h
  cases hresolve : t.resolve here p with
  | error fault => simp [hresolve] at h
  | ok place =>
      cases hnode : t.node? place with
      | none => simp [hresolve, hnode] at h
      | some node =>
          cases node with
          | directory => simp [hresolve, hnode] at h
          | file octets' executable =>
              simp only [hresolve, hnode, Except.ok.injEq] at h
              exact ⟨place, executable, rfl, by rw [hnode, h]⟩

/-- And the file there is what reading gives. -/
theorem read_of_file {t : Tree} {here place : Place} {p : Path} {octets : List UInt8}
    {executable : Bool} (hresolve : t.resolve here p = .ok place)
    (hnode : t.node? place = some (.file octets executable)) : t.read here p = .ok octets := by
  simp [read, find, hresolve, hnode]

/-! ## what a step keeps -/

/-- The second tree has every directory of the first, and every file but those at
the places that were touched. -/
structure Frame (touched : Place → Prop) (t t' : Tree) : Prop where
  directory : ∀ place, t.node? place = some .directory → t'.node? place = some .directory
  file : ∀ place octets executable, ¬touched place →
    t.node? place = some (.file octets executable) →
      ∃ executable', t'.node? place = some (.file octets executable')

namespace Frame

variable {touched : Place → Prop} {t t' t'' : Tree} {here : Place} {p : Path}

/-- Doing nothing is framed by every set of places. -/
theorem refl (touched : Place → Prop) (t : Tree) : Frame touched t t :=
  ⟨fun _ h => h, fun _ _ executable _ h => ⟨executable, h⟩⟩

/-- Frames with the same touched places compose. -/
theorem trans (h : Frame touched t t') (h' : Frame touched t' t'') : Frame touched t t'' where
  directory place hd := h'.directory place (h.directory place hd)
  file place octets executable hplace hf := by
    obtain ⟨executable', hf'⟩ := h.file place octets executable hplace hf
    exact h'.file place octets executable' hplace hf'

/-- More places may be allowed than were touched. -/
theorem mono {touched' : Place → Prop} (h : Frame touched t t')
    (himp : ∀ place, touched place → touched' place) : Frame touched' t t' where
  directory := h.directory
  file place octets executable hplace :=
    h.file place octets executable fun ht => hplace (himp place ht)

/-- A framed change takes no directory away, so every walk is still possible. -/
theorem walk (h : Frame touched t t') {place next : Place} {names : List String}
    (hwalk : t.walk place names = .ok next) : t'.walk place names = .ok next := by
  induction names generalizing place with
  | nil => exact hwalk
  | cons name more ih =>
      rw [Tree.walk] at hwalk ⊢
      split at hwalk
      · next mid hstep =>
          have hd := directory_of_step hstep
          have hstep' : t'.step place name = .ok mid := by
            rw [step, hd] at hstep
            rw [step, h.directory place hd]
            exact hstep
          rw [hstep']
          exact ih hwalk
      · cases hwalk

/-- Hence a path that resolved still resolves to the same place. -/
theorem resolve (h : Frame touched t t') {place : Place} (hresolve : t.resolve here p = .ok place) :
    t'.resolve here p = .ok place := by
  rw [Tree.resolve] at hresolve ⊢
  split at hresolve
  · cases hresolve
  split at hresolve
  · cases hresolve
  split at hresolve
  · cases hresolve
  next h₁ h₂ h₃ =>
    rw [if_neg h₁, if_neg h₂, if_neg h₃]
    exact h.walk hresolve

/-- **A path reads what it read**, unless its own place was touched. -/
theorem read (h : Frame touched t t') {octets : List UInt8} (hread : t.read here p = .ok octets)
    (hplace : ¬touched (p.placeFrom here)) : t'.read here p = .ok octets := by
  obtain ⟨place, executable, hresolve, hnode⟩ := file_of_read hread
  rw [← place_of_resolve hresolve] at hplace
  obtain ⟨executable', hnode'⟩ := h.file place octets executable hplace hnode
  exact read_of_file (h.resolve hresolve) hnode'

end Frame

/-- Only the root is sure to be a directory. -/
theorem ne_nil_of_node? {t : Tree} {place : Place} (h : t.node? place ≠ some .directory) :
    place ≠ [] := by
  rintro rfl
  exact h t.node?_root

/-- A new directory is put where nothing was, which touches no file. -/
theorem frame_put_directory {t : Tree} {place : Place} (touched : Place → Prop)
    (h : t.node? place = none) : Frame touched t (t.put place .directory) := by
  have hroot : place ≠ [] := ne_nil_of_node? (t := t) (by simp [h])
  have hne (other : Place) {n : Node} (hother : t.node? other = some n) : other ≠ place := by
    rintro rfl
    rw [h] at hother
    cases hother
  constructor
  · intro other hd
    rw [node?_put hroot, if_neg (hne other hd), hd]
  · intro other octets executable _ hf
    exact ⟨executable, by rw [node?_put hroot, if_neg (hne other hf), hf]⟩

/-- A file is put over nothing or over a file, and that place is all it touches. -/
theorem frame_put_file {t : Tree} {place : Place} {octets : List UInt8} {executable : Bool}
    (h : t.node? place ≠ some .directory) :
    Frame (· = place) t (t.put place (.file octets executable)) := by
  have hroot : place ≠ [] := ne_nil_of_node? h
  constructor
  · intro other hd
    have hne : other ≠ place := by
      rintro rfl
      exact h hd
    rw [node?_put hroot, if_neg hne, hd]
  · intro other octets' executable' hne hf
    exact ⟨executable', by rw [node?_put hroot, if_neg hne, hf]⟩

/-- **Writing a file touches its place only**, whether it succeeds or not. -/
theorem frame_write (t : Tree) (here : Place) (p : Path) (octets : List UInt8) :
    Frame (· = p.placeFrom here) t (t.write here p octets).2 := by
  rw [write]
  split
  · exact .refl _ t
  · next place hresolve =>
      rw [← place_of_resolve hresolve]
      split
      · exact .refl _ t
      · next hnode => exact frame_put_file (by simp [hnode])
      · next hnode => exact frame_put_file (by simp [hnode])

/-- What was written is read. -/
theorem read_write {t : Tree} {here : Place} {p : Path} {octets : List UInt8}
    (h : (t.write here p octets).1 = .ok ()) :
    (t.write here p octets).2.read here p = .ok octets := by
  have hframe := frame_write t here p octets
  have hwritten (place : Place) (executable : Bool) (hresolve : t.resolve here p = .ok place)
      (hnode : t.node? place ≠ some .directory)
      (heq : (t.write here p octets).2 = t.put place (.file octets executable)) :
      (t.write here p octets).2.read here p = .ok octets := by
    have hroot : place ≠ [] := ne_nil_of_node? hnode
    have hfile : (t.write here p octets).2.node? place = some (.file octets executable) := by
      rw [heq, node?_put hroot, if_pos rfl]
    exact read_of_file (hframe.resolve hresolve) hfile
  cases hresolve : t.resolve here p with
  | error fault => simp [write, hresolve] at h
  | ok place =>
      cases hnode : t.node? place with
      | none =>
          exact hwritten place false hresolve (by simp [hnode]) (by simp [write, hresolve, hnode])
      | some node =>
          cases node with
          | directory => simp [write, hresolve, hnode] at h
          | file old executable =>
              exact hwritten place executable hresolve (by simp [hnode])
                (by simp [write, hresolve, hnode])

/-- Creating a directory touches no file, also when it fails. -/
theorem frame_createDirectory (t : Tree) (here : Place) (p : Path) (touched : Place → Prop) :
    Frame touched t (t.createDirectory here p).2 := by
  rw [createDirectory]
  split
  · exact .refl _ t
  · split
    · exact .refl _ t
    · next hnode => exact frame_put_directory touched hnode

/-- What every step of making directories keeps, making those of a lineage keeps. -/
theorem createLineage_keeps {R : Tree → Tree → Prop} (hrefl : ∀ t, R t t)
    (htrans : ∀ t t' t'', R t t' → R t' t'' → R t t'') {here : Place}
    (hstep : ∀ t p, R t (createDirectory t here p).2) (t : Tree) (ps : List Path) :
    R t (t.createLineage here ps).2 := by
  induction ps with
  | nil => exact hrefl t
  | cons p above ih =>
      have hsettle {u : Tree} (hu : R t u) (fault : MachineFault) :
          R t (if u.isDirectory here p then (Except.ok (), u) else (.error fault, u)).2 := by
        split <;> exact hu
      rw [createLineage]
      dsimp only
      split
      · next t' hcreate =>
          have h := hstep t p
          rwa [hcreate] at h
      · split
        · next fault t' hlineage => rwa [hlineage] at ih
        · next t' hlineage =>
            rw [hlineage] at ih
            split
            · next t'' hcreate =>
                have h := hstep t' p
                rw [hcreate] at h
                exact htrans _ _ _ ih h
            · next fault _ _ => exact hsettle ih fault
      · next fault _ _ _ => exact hsettle (hrefl t) fault

/-- Nor does the creation of all the directories on the way. -/
theorem frame_createLineage (t : Tree) (here : Place) (ps : List Path) (touched : Place → Prop) :
    Frame touched t (t.createLineage here ps).2 :=
  createLineage_keeps (Frame.refl touched) (fun _ _ _ => Frame.trans)
    (fun t p => frame_createDirectory t here p touched) t ps

/-- **Making directories touches nothing**, whether it succeeds or not. -/
theorem frame_createDirectories (t : Tree) (here : Place) (p : Path) (touched : Place → Prop) :
    Frame touched t (t.createDirectories here p).2 :=
  frame_createLineage t here _ touched

end Tree

end BindingSynthesis
