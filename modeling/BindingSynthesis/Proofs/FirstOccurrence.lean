/-!
# BindingSynthesis.Proofs.FirstOccurrence

Elements of a list that come first with their key, and those that repeat a key.

```
firstOccurrences key xs  =  xs  without each element whose key came before it
repetitions key xs       =  the elements that are left out
```

Both are stated by positions, without a state.  Loops carry the keys that are
taken instead: `scan` marks each element with whether its key is taken when its
turn comes, and `scan_nil` says that the marks of a scan that starts with
nothing taken are those of the positions.
-/

namespace BindingSynthesis

variable {α β κ : Type} [DecidableEq κ]

/-! ## by position -/

/-- The key of the element at a position occurs at an earlier position. -/
def occursBefore (key : α → κ) (xs : List α) (p : α × Nat) : Bool :=
  decide (key p.1 ∈ (xs.take p.2).map key)

/-- The elements whose key does not occur earlier in the list, in order. -/
def firstOccurrences (key : α → κ) (xs : List α) : List α :=
  (xs.zipIdx.filter fun p => !occursBefore key xs p).map Prod.fst

/-- The elements whose key occurs earlier in the list, in order. -/
def repetitions (key : α → κ) (xs : List α) : List α :=
  (xs.zipIdx.filter fun p => occursBefore key xs p).map Prod.fst

/-! ## by a scan -/

/-- Each element with whether its key is taken when its turn comes; a key that
is not taken becomes so. -/
def scan (key : α → κ) : List κ → List α → List (α × Bool)
  | _, [] => []
  | taken, x :: xs =>
    if key x ∈ taken then (x, true) :: scan key taken xs
    else (x, false) :: scan key (key x :: taken) xs

/-- The elements that come first with a key that is not taken. -/
def firstsAfter (key : α → κ) (taken : List κ) (xs : List α) : List α :=
  ((scan key taken xs).filter fun p => !p.2).map Prod.fst

/-- The elements whose key is taken when their turn comes. -/
def repeatsAfter (key : α → κ) (taken : List κ) (xs : List α) : List α :=
  ((scan key taken xs).filter fun p => p.2).map Prod.fst

variable {key : α → κ} {taken : List κ} {x : α}

@[simp] theorem firstsAfter_nil : firstsAfter key taken [] = [] := rfl

@[simp] theorem repeatsAfter_nil : repeatsAfter key taken [] = [] := rfl

/-- An element whose key is taken is left out. -/
theorem firstsAfter_cons_of_mem (h : key x ∈ taken) (xs : List α) :
    firstsAfter key taken (x :: xs) = firstsAfter key taken xs := by
  simp [firstsAfter, scan, h]

/-- A new one is kept, and its key is taken from there on. -/
theorem firstsAfter_cons_of_not_mem (h : key x ∉ taken) (xs : List α) :
    firstsAfter key taken (x :: xs) = x :: firstsAfter key (key x :: taken) xs := by
  simp [firstsAfter, scan, h]

/-- The repetitions have what the first occurrences leave out. -/
theorem repeatsAfter_cons_of_mem (h : key x ∈ taken) (xs : List α) :
    repeatsAfter key taken (x :: xs) = x :: repeatsAfter key taken xs := by
  simp [repeatsAfter, scan, h]

/-- And leave out what those have. -/
theorem repeatsAfter_cons_of_not_mem (h : key x ∉ taken) (xs : List α) :
    repeatsAfter key taken (x :: xs) = repeatsAfter key (key x :: taken) xs := by
  simp [repeatsAfter, scan, h]

/-- The elements of a scanned list may be renamed before or after the scan. -/
theorem scan_map (f : β → α) (taken : List κ) (ys : List β) :
    scan key taken (ys.map f) = (scan (key ∘ f) taken ys).map (Prod.map f id) := by
  induction ys generalizing taken with
  | nil => rfl
  | cons y ys ih =>
      rw [List.map_cons, scan, scan, Function.comp_apply]
      split <;> rw [ih, List.map_cons, Prod.map_apply, id]

/-- The first occurrences of images are the images of first occurrences under the composed
key. -/
theorem firstsAfter_map (f : β → α) (taken : List κ) (ys : List β) :
    firstsAfter key taken (ys.map f) = (firstsAfter (key ∘ f) taken ys).map f := by
  simp [firstsAfter, scan_map, List.filter_map, Function.comp_def]

/-- The same for the repetitions. -/
theorem repeatsAfter_map (f : β → α) (taken : List κ) (ys : List β) :
    repeatsAfter key taken (ys.map f) = (repeatsAfter (key ∘ f) taken ys).map f := by
  simp [repeatsAfter, scan_map, List.filter_map, Function.comp_def]

/-! ## the two views agree -/

/-- A scan in the middle of a list: the taken keys are those taken at the start
and those of the elements `before` it, whose number is its first position. -/
theorem scan_eq_map_zipIdx (start : List κ) (before xs : List α)
    (h : ∀ k, k ∈ taken ↔ k ∈ start ∨ k ∈ before.map key) :
    scan key taken xs = (xs.zipIdx before.length).map fun p =>
      (p.1, decide (key p.1 ∈ start) || occursBefore key (before ++ xs) p) := by
  induction xs generalizing before taken with
  | nil => rfl
  | cons x xs ih =>
      have hlist : before ++ x :: xs = (before ++ [x]) ++ xs := by simp
      have hlen : before.length + 1 = (before ++ [x]).length := by simp
      have hhead : (decide (key x ∈ start) ||
          occursBefore key (before ++ x :: xs) (x, before.length)) = decide (key x ∈ taken) := by
        simp [occursBefore, h]
      have hkeys : ∀ k, k ∈ start ∨ k ∈ (before ++ [x]).map key ↔ k ∈ taken ∨ k = key x := by
        intro k
        simp [h, or_assoc]
      rw [scan, List.zipIdx_cons, List.map_cons, hhead, hlist, hlen]
      by_cases hx : key x ∈ taken
      · rw [if_pos hx, decide_eq_true hx, ih (before ++ [x])]
        intro k
        rw [hkeys]
        exact ⟨.inl, fun hk => hk.elim id fun e => e ▸ hx⟩
      · rw [if_neg hx, decide_eq_false hx, ih (before ++ [x])]
        intro k
        rw [hkeys, List.mem_cons, or_comm]

/-- **A scan marks by position**: an element is marked exactly if its key is
taken at the start or occurs before it. -/
theorem scan_eq_zipIdx (start : List κ) (xs : List α) :
    scan key start xs =
      xs.zipIdx.map fun p => (p.1, decide (key p.1 ∈ start) || occursBefore key xs p) := by
  have hkeys : ∀ k : κ, k ∈ start ↔ k ∈ start ∨ k ∈ ([] : List α).map key := by simp
  have h := scan_eq_map_zipIdx start [] xs hkeys
  rwa [List.nil_append] at h

/-- Only which keys are taken matters, not in which order. -/
theorem firstsAfter_congr {start start' : List κ} (h : ∀ k, k ∈ start ↔ k ∈ start') (xs : List α) :
    firstsAfter key start xs = firstsAfter key start' xs := by
  simp [firstsAfter, scan_eq_zipIdx, h]

/-- With nothing taken at the start, an element is marked exactly if its key
occurs before it. -/
theorem scan_nil (xs : List α) :
    scan key [] xs = xs.zipIdx.map fun p => (p.1, occursBefore key xs p) := by
  simp [scan_eq_zipIdx]

/-- With no key taken before, the fold computes the first occurrences. -/
theorem firstsAfter_eq_firstOccurrences (xs : List α) :
    firstsAfter key [] xs = firstOccurrences key xs := by
  simp [firstsAfter, scan_nil, firstOccurrences, List.filter_map, Function.comp_def]

/-- And it sorts out the repetitions. -/
theorem repeatsAfter_eq_repetitions (xs : List α) :
    repeatsAfter key [] xs = repetitions key xs := by
  simp [repeatsAfter, scan_nil, repetitions, List.filter_map, Function.comp_def]

/-! ## membership and keys -/

/-- The scan only marks the elements: it keeps all of them, in order. -/
theorem map_fst_scan (taken : List κ) (xs : List α) : (scan key taken xs).map Prod.fst = xs := by
  induction xs generalizing taken with
  | nil => rfl
  | cons x xs ih =>
      rw [scan]
      split <;> rw [List.map_cons, ih]

/-- Nothing is kept that was not there. -/
theorem mem_of_mem_firstsAfter {xs : List α} (h : x ∈ firstsAfter key taken xs) : x ∈ xs := by
  obtain ⟨p, hp, rfl⟩ := List.mem_map.mp h
  rw [← map_fst_scan taken xs]
  exact List.mem_map_of_mem (List.mem_filter.mp hp).1

/-- In particular every first occurrence occurs. -/
theorem mem_of_mem_firstOccurrences {xs : List α} (h : x ∈ firstOccurrences key xs) : x ∈ xs := by
  rw [← firstsAfter_eq_firstOccurrences] at h
  exact mem_of_mem_firstsAfter h

/-- A key that is taken is the key of no first element. -/
theorem key_not_mem_of_mem_firstsAfter {xs : List α} (h : x ∈ firstsAfter key taken xs) :
    key x ∉ taken := by
  induction xs generalizing taken with
  | nil => cases h
  | cons y ys ih =>
      by_cases hy : key y ∈ taken
      · rw [firstsAfter_cons_of_mem hy] at h
        exact ih h
      · rw [firstsAfter_cons_of_not_mem hy] at h
        cases List.mem_cons.mp h with
        | inl he => exact he ▸ hy
        | inr ht => exact fun hx => ih ht (List.mem_cons_of_mem _ hx)

/-- The first elements have different keys. -/
theorem nodup_map_firstsAfter (taken : List κ) (xs : List α) :
    ((firstsAfter key taken xs).map key).Nodup := by
  induction xs generalizing taken with
  | nil => exact List.nodup_nil
  | cons y ys ih =>
      by_cases hy : key y ∈ taken
      · rw [firstsAfter_cons_of_mem hy]
        exact ih taken
      · rw [firstsAfter_cons_of_not_mem hy, List.map_cons, List.nodup_cons]
        refine ⟨fun hm => ?_, ih _⟩
        obtain ⟨z, hz, he⟩ := List.mem_map.mp hm
        exact key_not_mem_of_mem_firstsAfter hz (by rw [he]; exact List.mem_cons_self)

/-- Every key that is not taken has a first element. -/
theorem mem_map_firstsAfter {k : κ} {xs : List α} :
    k ∈ (firstsAfter key taken xs).map key ↔ k ∈ xs.map key ∧ k ∉ taken := by
  induction xs generalizing taken with
  | nil => simp
  | cons y ys ih =>
      by_cases hy : key y ∈ taken
      · rw [firstsAfter_cons_of_mem hy, ih, List.map_cons, List.mem_cons]
        exact ⟨fun h => ⟨.inr h.1, h.2⟩, fun h => ⟨h.1.resolve_left fun e => h.2 (e ▸ hy), h.2⟩⟩
      · rw [firstsAfter_cons_of_not_mem hy, List.map_cons, List.mem_cons, ih, List.map_cons,
          List.mem_cons, List.mem_cons]
        by_cases hk : k = key y
        · subst hk
          simp [hy]
        · simp [hk]

end BindingSynthesis
