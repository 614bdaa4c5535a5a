import BuilderControl.Entries

/-!
# Laws of maps in key order

Every operation is described by what it does to `get?`, and every operation keeps the key order.
Two maps in key order with the same lookups are the same list, so an equation between maps is
proved key by key.

## Key results

- `get?_insert`, `get?_erase`, `get?_union`, `get?_ofList`: the view of every operation
- `Sorted.insert`, `Sorted.erase`, `Sorted.union`, `sorted_ofList`: key order is kept
- `Sorted.ext`: maps in key order are equal when their lookups are
- `Sorted.assign_comm`: entries of different keys are set in either order
-/

namespace BuilderControl.Entries

variable {κ α β : Type}

/-! ## Lookups -/

section Lookup

variable [DecidableEq κ]

/-- An empty map has no entry. -/
@[simp] theorem get?_nil (k : κ) : get? ([] : Entries κ α) k = none := rfl

/-- The first entry answers for its key, the entries after it for all other keys. -/
theorem get?_cons (e : κ × α) (es : Entries κ α) (k : κ) :
    get? (e :: es) k = if k = e.1 then some e.2 else get? es k := rfl

/-- Of two lists of entries, the second one is asked for what the first one does not have. -/
theorem get?_append (xs ys : Entries κ α) (k : κ) :
    get? (xs ++ ys) k = (get? xs k).or (get? ys k) := by
  induction xs with
  | nil => simp
  | cons x xs ih =>
    rw [List.cons_append, get?_cons, get?_cons, ih]
    split <;> rfl

/-- What is found under a key is an entry. -/
theorem mem_of_get? {es : Entries κ α} {k : κ} {v : α} (h : get? es k = some v) :
    (k, v) ∈ es := by
  induction es with
  | nil => simp at h
  | cons e es ih =>
    obtain ⟨k', v'⟩ := e
    rw [get?_cons] at h
    split at h
    · cases h; simp_all
    · exact List.mem_cons_of_mem _ (ih h)

/-- Nothing is found under a key that no entry has. -/
theorem get?_eq_none_of_forall_ne {es : Entries κ α} {k : κ} (h : ∀ e ∈ es, e.1 ≠ k) :
    get? es k = none := by
  cases hg : get? es k with
  | none => rfl
  | some v => exact absurd rfl (h _ (mem_of_get? hg))

/-- A map contains a key if something is found under it. -/
theorem contains_iff {es : Entries κ α} {k : κ} :
    contains es k = true ↔ ∃ v, get? es k = some v :=
  Option.isSome_iff_exists

/-- If all values are changed, so is the one that is found. -/
theorem get?_map (f : κ → α → β) (es : Entries κ α) (k : κ) :
    get? (es.map fun e => (e.1, f e.1 e.2)) k = (get? es k).map (f k) := by
  induction es with
  | nil => rfl
  | cons e es ih =>
    obtain ⟨k', v⟩ := e
    simp only [List.map_cons, get?_cons, ih]
    split
    · simp_all
    · rfl

/-- Entries that are selected by their keys are found as they were, and no others are. -/
theorem get?_filter (p : κ → Bool) (es : Entries κ α) (k : κ) :
    get? (es.filter fun e => p e.1) k = if p k then get? es k else none := by
  induction es with
  | nil => simp
  | cons e es ih =>
    obtain ⟨k', v⟩ := e
    by_cases hk : k = k'
    · subst hk
      by_cases hp : p k <;> simp [get?_cons, hp, ih]
    · by_cases hp : p k' <;> simp [get?_cons, hp, hk, ih]

end Lookup

/-! ## Insertion and union -/

section Insert

variable [DecidableEq κ] [LT κ] [DecidableLT κ]

/-- After an insertion, the new value is found under its key, and all else as before. -/
@[simp] theorem get?_insert (es : Entries κ α) (k : κ) (v : α) (k' : κ) :
    get? (Entries.insert es k v) k' = if k' = k then some v else get? es k' := by
  induction es with
  | nil => simp [Entries.insert, get?_cons]
  | cons e es ih =>
    obtain ⟨l, w⟩ := e
    unfold Entries.insert
    -- The three cases are those of `insert`: the key is the first one, comes before it, or after it
    split
    · rename_i heq
      subst heq
      simp only [get?_cons]
      split <;> rfl
    · split
      · rfl
      · simp only [get?_cons, ih]
        -- The key goes further down, so the first entry is still the first one
        by_cases hl : k' = l
        · have hne : k' ≠ k := fun h => by simp_all
          simp [hl, hl ▸ hne]
        · simp [hl]

/-- An insertion adds no entry but the new one. -/
theorem mem_insert {es : Entries κ α} {k : κ} {v : α} {e : κ × α}
    (h : e ∈ Entries.insert es k v) : e = (k, v) ∨ e ∈ es := by
  induction es with
  | nil => simpa [Entries.insert] using h
  | cons x es ih =>
    obtain ⟨l, w⟩ := x
    unfold Entries.insert at h
    split at h
    · rcases List.mem_cons.1 h with rfl | h
      · exact Or.inl rfl
      · exact Or.inr (List.mem_cons_of_mem _ h)
    · split at h
      · rcases List.mem_cons.1 h with rfl | h
        · exact Or.inl rfl
        · exact Or.inr h
      · rcases List.mem_cons.1 h with rfl | h
        · exact Or.inr List.mem_cons_self
        · exact (ih h).imp_right (List.mem_cons_of_mem _)

/-- A union is built by insertions, the first entry's last. -/
theorem union_cons (x : κ × α) (xs es : Entries κ α) :
    union (x :: xs) es = Entries.insert (union xs es) x.1 x.2 := rfl

/-- In a union, the second map is asked for what the first one does not have. -/
theorem get?_union (xs es : Entries κ α) (k : κ) :
    get? (union xs es) k = (get? xs k).or (get? es k) := by
  induction xs with
  | nil => simp [union]
  | cons x xs ih =>
    rw [union_cons, get?_insert, get?_cons, ih]
    split <;> rfl

end Insert

/-! ## Key order -/

section Order

variable [LT κ]

/-- An empty map is in key order. -/
@[simp] theorem sorted_nil : Sorted ([] : Entries κ α) := List.Pairwise.nil

/-- Key order, entry by entry: the first key is below all others. -/
theorem sorted_cons {e : κ × α} {es : Entries κ α} :
    Sorted (e :: es) ↔ (∀ x ∈ es, e.1 < x.1) ∧ Sorted es :=
  List.pairwise_cons

/-- A map of one entry is in key order. -/
@[simp] theorem sorted_singleton (e : κ × α) : Sorted [e] := List.pairwise_singleton _ e

/-- What comes after the first entry is in key order. -/
theorem Sorted.tail {e : κ × α} {es : Entries κ α} (h : Sorted (e :: es)) : Sorted es :=
  (sorted_cons.1 h).2

/-- Dropping entries keeps the key order. -/
theorem Sorted.sublist {xs ys : Entries κ α} (h : Sorted ys) (hs : xs.Sublist ys) : Sorted xs :=
  List.Pairwise.sublist hs h

/-- Changing the values keeps the key order. -/
theorem Sorted.map {es : Entries κ α} (h : Sorted es) (f : κ → α → β) :
    Sorted (es.map fun e => (e.1, f e.1 e.2)) :=
  List.pairwise_map.2 h

variable [DecidableEq κ]

/-- What is found after the first entry has a greater key. -/
theorem Sorted.lt_of_get? {k k' : κ} {v v' : α} {es : Entries κ α} (h : Sorted ((k, v) :: es))
    (hg : get? es k' = some v') : k < k' :=
  (sorted_cons.1 h).1 _ (mem_of_get? hg)

omit [LT κ] in
/-- What is left after an entry is dropped is a part of the map. -/
theorem erase_sublist (es : Entries κ α) (k : κ) : (erase es k).Sublist es := by
  induction es with
  | nil => exact List.Sublist.refl _
  | cons e es ih =>
    unfold erase
    split
    · exact List.sublist_cons_self _ _
    · exact ih.cons_cons _

/-- Dropping an entry keeps the key order. -/
theorem Sorted.erase {es : Entries κ α} (h : Sorted es) (k : κ) : Sorted (Entries.erase es k) :=
  h.sublist (erase_sublist es k)

variable [Std.Irrefl (fun a b : κ => a < b)]

/-- The key of the first entry does not occur again. -/
theorem Sorted.get?_tail {k : κ} {v : α} {es : Entries κ α} (h : Sorted ((k, v) :: es)) :
    get? es k = none := by
  cases hg : get? es k with
  | none => rfl
  | some w => exact absurd (h.lt_of_get? hg) (Std.Irrefl.irrefl k)

/-- In key order, an entry is what is found under its key. -/
theorem Sorted.get?_of_mem {es : Entries κ α} {k : κ} {v : α} (h : Sorted es)
    (hm : (k, v) ∈ es) : get? es k = some v := by
  induction es with
  | nil => simp at hm
  | cons e es ih =>
    obtain ⟨l, w⟩ := e
    rw [get?_cons]
    rcases List.mem_cons.1 hm with heq | hm
    · cases heq; simp
    · -- The entry comes later, so its key is not that of the first one
      have hlt : l < k := (sorted_cons.1 h).1 _ hm
      have hne : k ≠ l := fun heq => Std.Irrefl.irrefl (r := fun a b : κ => a < b) l (heq ▸ hlt)
      rw [if_neg hne]
      exact ih h.tail hm

/-- In key order, nothing is found under a key that was erased, and all else as before. -/
theorem Sorted.get?_erase {es : Entries κ α} (h : Sorted es) (k k' : κ) :
    get? (Entries.erase es k) k' = if k' = k then none else get? es k' := by
  induction es with
  | nil => simp [Entries.erase]
  | cons e es ih =>
    obtain ⟨l, w⟩ := e
    unfold Entries.erase
    by_cases hk : k = l
    · subst hk
      rw [if_pos rfl, get?_cons]
      -- The entry is dropped, and its key does not come again
      by_cases hk' : k' = k
      · subst hk'
        simp [h.get?_tail]
      · simp [hk']
    · rw [if_neg hk, get?_cons, ih h.tail, get?_cons]
      by_cases hl : k' = l
      · have hne : k' ≠ k := fun heq => hk (heq ▸ hl)
        simp [hl, hl ▸ hne]
      · simp [hl]

variable [Trans (fun a b : κ => a < b) (fun a b : κ => a < b) (fun a b : κ => a < b)]

omit [DecidableEq κ] [Std.Irrefl (fun a b : κ => a < b)] in
/-- Keys are ordered transitively. -/
private theorem lt_trans {a b c : κ} (hab : a < b) (hbc : b < c) : a < c :=
  Trans.trans (r := fun a b : κ => a < b) (s := fun a b : κ => a < b) hab hbc

/-- Maps in key order are equal when their lookups are. -/
theorem Sorted.ext {xs ys : Entries κ α} (hx : Sorted xs) (hy : Sorted ys)
    (h : ∀ k, get? xs k = get? ys k) : xs = ys := by
  induction xs generalizing ys with
  | nil =>
    cases ys with
    | nil => rfl
    | cons y ys => simpa [get?_cons] using h y.1
  | cons x xs ih =>
    obtain ⟨k, v⟩ := x
    cases ys with
    | nil => simpa [get?_cons] using h k
    | cons y ys =>
      obtain ⟨l, w⟩ := y
      -- If the first keys were different, each would be found in the other tail, and above itself
      have hk : k = l := by
        refine Classical.byContradiction fun hne => ?_
        have h₁ := h k
        have h₂ := h l
        simp only [get?_cons, if_true, if_neg hne, if_neg (Ne.symm hne)] at h₁ h₂
        exact Std.Irrefl.irrefl (r := fun a b : κ => a < b) k
          (lt_trans (hx.lt_of_get? h₂) (hy.lt_of_get? h₁.symm))
      subst hk
      have hv : v = w := by simpa [get?_cons] using h k
      subst hv
      -- Below the common first entry, its key is in neither tail
      have htail : ∀ j, get? xs j = get? ys j := by
        intro j
        by_cases hj : j = k
        · rw [hj, hx.get?_tail, hy.get?_tail]
        · simpa [get?_cons, hj] using h j
      rw [ih hx.tail hy.tail htail]

variable [DecidableLT κ] [Std.Trichotomous (fun a b : κ => a < b)]

omit [Std.Irrefl (fun a b : κ => a < b)] in
/-- An insertion keeps the key order. -/
theorem Sorted.insert {es : Entries κ α} (h : Sorted es) (k : κ) (v : α) :
    Sorted (Entries.insert es k v) := by
  induction es with
  | nil => simp [Entries.insert, sorted_cons]
  | cons e es ih =>
    obtain ⟨l, w⟩ := e
    obtain ⟨hlt, htail⟩ := sorted_cons.1 h
    unfold Entries.insert
    split
    · rename_i heq
      subst heq
      exact sorted_cons.2 ⟨hlt, htail⟩
    · rename_i hne
      split
      · rename_i hkl
        refine sorted_cons.2 ⟨fun x hx => ?_, h⟩
        rcases List.mem_cons.1 hx with rfl | hx
        · exact hkl
        · exact lt_trans hkl (hlt x hx)
      · rename_i hkl
        -- The key belongs further down, since it is neither this one nor before it
        have hlk : l < k := Classical.byContradiction fun hlk =>
          hne (Std.Trichotomous.trichotomous (r := fun a b : κ => a < b) k l hkl hlk)
        refine sorted_cons.2 ⟨fun x hx => ?_, ih htail⟩
        rcases mem_insert hx with rfl | hx
        · exact hlk
        · exact hlt x hx

omit [Std.Irrefl (fun a b : κ => a < b)] in
/-- A union with a map in key order is in key order, whatever is put into it. -/
theorem Sorted.union {xs es : Entries κ α} (h : Sorted es) : Sorted (Entries.union xs es) := by
  induction xs with
  | nil => exact h
  | cons x xs ih => exact ih.insert x.1 x.2

/-- Inserting what is there already changes nothing. -/
theorem Sorted.insert_get? {es : Entries κ α} (h : Sorted es) {k : κ} {v : α}
    (hg : get? es k = some v) : Entries.insert es k v = es := by
  refine (h.insert k v).ext h fun j => ?_
  rw [get?_insert]
  split
  · simp_all
  · rfl

/-! ## Setting one entry -/

/-- Stores a value under a key, or drops the entry of the key. -/
def assign (es : Entries κ α) (k : κ) : Option α → Entries κ α
  | some v => insert es k v
  | none => erase es k

omit [Trans (fun a b : κ => a < b) (fun a b : κ => a < b) (fun a b : κ => a < b)]
  [Std.Trichotomous (fun a b : κ => a < b)] in
/-- After an assignment, its value or nothing is found under its key, and all else as before. -/
theorem Sorted.get?_assign {es : Entries κ α} (h : Sorted es) (k : κ) (v : Option α) (k' : κ) :
    get? (assign es k v) k' = if k' = k then v else get? es k' := by
  cases v with
  | some v => exact get?_insert es k v k'
  | none => exact h.get?_erase k k'

omit [Std.Irrefl (fun a b : κ => a < b)] in
/-- An assignment keeps the key order. -/
theorem Sorted.assign {es : Entries κ α} (h : Sorted es) (k : κ) (v : Option α) :
    Sorted (Entries.assign es k v) := by
  cases v with
  | some v => exact h.insert k v
  | none => exact h.erase k

/-- Assigning what is found already changes nothing. -/
theorem Sorted.assign_get? {es : Entries κ α} (h : Sorted es) (k : κ) :
    Entries.assign es k (get? es k) = es := by
  refine (h.assign k _).ext h fun k' => ?_
  rw [h.get?_assign]
  split
  · simp [*]
  · rfl

/-- Only the last value counts. -/
theorem Sorted.assign_assign {es : Entries κ α} (h : Sorted es) (k : κ) (v w : Option α) :
    Entries.assign (Entries.assign es k v) k w = Entries.assign es k w := by
  refine ((h.assign k v).assign k w).ext (h.assign k w) fun k' => ?_
  rw [(h.assign k v).get?_assign, h.get?_assign, h.get?_assign]
  split <;> rfl

/-- Assignments to different keys may be made in either order. -/
theorem Sorted.assign_comm {es : Entries κ α} (h : Sorted es) {k l : κ} (hne : k ≠ l)
    (v w : Option α) : Entries.assign (Entries.assign es k v) l w =
      Entries.assign (Entries.assign es l w) k v := by
  refine ((h.assign k v).assign l w).ext ((h.assign l w).assign k v) fun k' => ?_
  rw [(h.assign k v).get?_assign, h.get?_assign, (h.assign l w).get?_assign, h.get?_assign]
  -- A key is that of one assignment at most
  by_cases hk : k' = k
  · have hl : k' ≠ l := fun hl => hne (hk.symm.trans hl)
    simp only [if_pos hk, if_neg hl]
  · simp only [if_neg hk]

/-! ## Maps from lists of bindings -/

omit [Std.Irrefl (fun a b : κ => a < b)] in
/-- Insertions one after the other keep the key order. -/
private theorem sorted_foldl_insert (bindings : List (κ × α)) {es : Entries κ α} (h : Sorted es) :
    Sorted (bindings.foldl (fun m (k, v) => Entries.insert m k v) es) := by
  induction bindings generalizing es with
  | nil => exact h
  | cons b bindings ih => exact ih (h.insert b.1 b.2)

omit [Std.Irrefl (fun a b : κ => a < b)] in
/-- A map that is made from bindings is in key order. -/
theorem sorted_ofList (bindings : List (κ × α)) : Sorted (ofList bindings) :=
  sorted_foldl_insert bindings sorted_nil

end Order

section OfList

variable [DecidableEq κ] [LT κ] [DecidableLT κ]

/-- Insertions one after the other: the last binding of a key is found, else what was there before.
-/
private theorem get?_foldl_insert (bindings : List (κ × α)) (es : Entries κ α) (k : κ) :
    get? (bindings.foldl (fun m (k, v) => Entries.insert m k v) es) k =
      (get? bindings.reverse k).or (get? es k) := by
  induction bindings generalizing es with
  | nil => simp
  | cons b bindings ih =>
    rw [List.foldl_cons, ih, get?_insert, List.reverse_cons, get?_append, get?_cons]
    cases get? bindings.reverse k with
    | some v => rfl
    | none => simp only [Option.none_or]; split <;> rfl

/-- Of two bindings of one key the later one counts. -/
theorem get?_ofList (bindings : List (κ × α)) (k : κ) :
    get? (ofList bindings) k = get? bindings.reverse k := by
  rw [ofList, get?_foldl_insert]
  simp

variable [Std.Irrefl (fun a b : κ => a < b)]

omit [DecidableLT κ] in
/-- In key order, each key has one entry, wherever one starts to look. -/
theorem Sorted.get?_reverse {es : Entries κ α} (h : Sorted es) (k : κ) :
    get? es.reverse k = get? es k := by
  induction es with
  | nil => rfl
  | cons e es ih =>
    rw [List.reverse_cons, get?_append, ih h.tail, get?_cons, get?_cons]
    split
    · rename_i hk
      rw [hk, h.get?_tail, Option.none_or]
    · rw [get?_nil, Option.or_none]

variable [Trans (fun a b : κ => a < b) (fun a b : κ => a < b) (fun a b : κ => a < b)]
  [Std.Trichotomous (fun a b : κ => a < b)]

/-- Bindings that are in key order are a map already. -/
theorem Sorted.ofList_eq {es : Entries κ α} (h : Sorted es) : ofList es = es :=
  (sorted_ofList es).ext h fun k => by rw [get?_ofList, h.get?_reverse]

end OfList

end BuilderControl.Entries
