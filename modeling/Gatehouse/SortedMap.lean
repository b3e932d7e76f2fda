/-!
# Maps sorted by their text keys

`SortedMap α` is a finite map from text to `α` whose entries stand in strictly increasing order of
the keys. Text is ordered by code points, which is also the byte order of its UTF-8 form. Two maps
that read alike are equal (`ext_get?`), so a map has one written form.

* `get?_insert`   the key inserted reads the new value, every other key what it read before
* `get?_erase`    the key erased reads nothing, every other key what it read before
* `mem_keys`      the keys are those that read a value
* `keys_sorted`   the keys stand in strictly increasing order
-/

namespace Gatehouse

/-- A finite map from text, its entries in strictly increasing order of the keys. -/
structure SortedMap (α : Type u) where
  entries : List (String × α)
  sorted : entries.Pairwise (·.1 < ·.1)

namespace SortedMap

variable {α : Type u}

/-- The map with nothing in it. -/
def empty : SortedMap α := ⟨[], .nil⟩

instance : Inhabited (SortedMap α) := ⟨empty⟩

/-- The keys, in increasing order. -/
def keys (m : SortedMap α) : List String := m.entries.map Prod.fst

/-- The value a key reads. -/
def get? (m : SortedMap α) (k : String) : Option α :=
  (m.entries.find? fun e => e.1 = k).map Prod.snd

/-- Puts an entry at its place in a sorted list, over an entry of the same key. -/
def insertEntry (k : String) (v : α) : List (String × α) → List (String × α)
  | [] => [(k, v)]
  | e :: es =>
    if k < e.1 then (k, v) :: e :: es
    else if k = e.1 then (k, v) :: es
    else e :: insertEntry k v es

/-- Nothing but the new entry and the old ones comes of an insertion. -/
theorem mem_insertEntry {k : String} {v : α} {es : List (String × α)} {e : String × α}
    (h : e ∈ insertEntry k v es) : e = (k, v) ∨ e ∈ es := by
  induction es with
  | nil => simpa [insertEntry] using h
  | cons a es ih =>
    simp only [insertEntry] at h
    split at h
    · simpa using h
    · split at h
      · simp only [List.mem_cons] at h ⊢
        exact h.imp_right .inr
      · simp only [List.mem_cons] at h ⊢
        rcases h with h | h
        · exact .inr (.inl h)
        · exact (ih h).imp_right .inr

/-- An entry is put where its key belongs. -/
theorem sorted_insertEntry (k : String) (v : α) {es : List (String × α)}
    (h : es.Pairwise (·.1 < ·.1)) : (insertEntry k v es).Pairwise (·.1 < ·.1) := by
  induction es with
  | nil => simp [insertEntry]
  | cons a es ih =>
    have ⟨ha, hes⟩ := List.pairwise_cons.1 h
    simp only [insertEntry]
    split
    · next hlt =>
      refine List.pairwise_cons.2 ⟨?_, h⟩
      intro e he
      rcases List.mem_cons.1 he with rfl | he
      · exact hlt
      · exact String.lt_trans hlt (ha e he)
    · next hnlt =>
      split
      · next heq => exact List.pairwise_cons.2 ⟨fun e he => heq ▸ ha e he, hes⟩
      · next hne =>
        refine List.pairwise_cons.2 ⟨?_, ih hes⟩
        intro e he
        rcases mem_insertEntry he with rfl | he
        · exact String.not_le.1 fun hle => hne (String.le_antisymm hle (String.not_lt.1 hnlt))
        · exact ha e he

/-- Makes the key read the value. -/
def insert (m : SortedMap α) (k : String) (v : α) : SortedMap α :=
  ⟨insertEntry k v m.entries, sorted_insertEntry k v m.sorted⟩

/-- Takes the key out. -/
def erase (m : SortedMap α) (k : String) : SortedMap α :=
  ⟨m.entries.filter fun e => e.1 ≠ k, m.sorted.filter _⟩

/-- The map of a list of entries; the last of two entries of one key counts. -/
def ofList (es : List (String × α)) : SortedMap α := es.foldl (fun m e => m.insert e.1 e.2) empty

/-- The empty map reads nothing. -/
@[simp] theorem get?_empty (k : String) : (empty : SortedMap α).get? k = none := rfl

/-- A key reads the value that it was given, and the others read what they did. -/
theorem get?_insert (m : SortedMap α) (k : String) (v : α) (k' : String) :
    (m.insert k v).get? k' = if k' = k then some v else m.get? k' := by
  obtain ⟨es, hs⟩ := m
  simp only [get?, insert]
  induction es with
  | nil =>
    by_cases h : k' = k
    · simp [insertEntry, h]
    · have h' : ¬ k = k' := fun e => h e.symm
      simp [insertEntry, h, h']
  | cons a es ih =>
    have ⟨_, hes⟩ := List.pairwise_cons.1 hs
    have ih := ih hes
    simp only [insertEntry]
    -- The entry comes in front of the first, in its place, or somewhere behind it.
    by_cases h : k' = k
    · subst h
      split
      · simp
      · split
        · simp
        · next hne =>
          have hne' : ¬ a.1 = k' := fun e => hne e.symm
          simpa [List.find?_cons, hne'] using ih
    · have h' : ¬ k = k' := fun e => h e.symm
      simp only [if_neg h] at ih ⊢
      split
      · simp [List.find?_cons, h']
      · split
        · next heq =>
          have : ¬ a.1 = k' := heq ▸ h'
          simp [h', this]
        · by_cases ha : a.1 = k'
          · simp [ha]
          · simpa [List.find?_cons, ha] using ih

/-- A key reads the value that it was just given. -/
@[simp] theorem get?_insert_self (m : SortedMap α) (k : String) (v : α) :
    (m.insert k v).get? k = some v := by
  simp [get?_insert]

/-- A key that was taken out reads nothing, and the others read what they did. -/
theorem get?_erase (m : SortedMap α) (k k' : String) :
    (m.erase k).get? k' = if k' = k then none else m.get? k' := by
  obtain ⟨es, hs⟩ := m
  simp only [get?, erase]
  clear hs
  induction es with
  | nil => simp
  | cons a es ih =>
    by_cases hak : a.1 = k <;> by_cases h : k' = k
    · simp [h]
    · have h' : ¬ k = k' := fun e => h e.symm
      simpa [List.filter_cons, List.find?_cons, hak, h, h'] using ih
    · subst h
      simp [hak]
    · by_cases ha : a.1 = k'
      · simp [ha, h]
      · simpa [List.filter_cons, List.find?_cons, hak, ha, h] using ih

/-- The keys stand in strictly increasing order. -/
theorem keys_sorted (m : SortedMap α) : m.keys.Pairwise (· < ·) :=
  List.pairwise_map.2 m.sorted

/-- The keys are those that read a value. -/
theorem mem_keys {m : SortedMap α} {k : String} : k ∈ m.keys ↔ (m.get? k).isSome := by
  simp only [keys, get?, Option.isSome_map, List.find?_isSome, List.mem_map, decide_eq_true_eq]

/-- The entries are what the keys read. -/
theorem mem_entries_iff {m : SortedMap α} {k : String} {v : α} :
    (k, v) ∈ m.entries ↔ m.get? k = some v := by
  obtain ⟨es, hs⟩ := m
  simp only [get?]
  induction es with
  | nil => simp
  | cons e es ih =>
    have ⟨he, hes⟩ := List.pairwise_cons.1 hs
    by_cases h : e.1 = k
    · have hn : (k, v) ∉ es := fun hm => String.lt_irrefl k (by simpa [h] using he _ hm)
      obtain ⟨a, b⟩ := e
      simp only at h
      subst h
      simp [hn, eq_comm]
    · have hne : (k, v) ≠ e := fun he => h (by rw [← he])
      simp [h, hne, ih hes]

/-- Sorted entries are determined by what they contain. -/
private theorem eq_of_sorted {es es' : List (String × α)} (hs : es.Pairwise (·.1 < ·.1))
    (hs' : es'.Pairwise (·.1 < ·.1)) (h : ∀ e, e ∈ es ↔ e ∈ es') : es = es' := by
  induction es generalizing es' with
  | nil =>
    cases es' with
    | nil => rfl
    | cons b es' => simpa using (h b).2 (by simp)
  | cons a es ih =>
    cases es' with
    | nil => simpa using (h a).1 (by simp)
    | cons b es' =>
      have ⟨ha, hes⟩ := List.pairwise_cons.1 hs
      have ⟨hb, hes'⟩ := List.pairwise_cons.1 hs'
      -- The first entries are the least of the same entries.
      have hab : a = b := by
        rcases List.mem_cons.1 ((h a).1 (by simp)) with hab | hab
        · exact hab
        · rcases List.mem_cons.1 ((h b).2 (by simp)) with hba | hba
          · exact hba.symm
          · exact absurd (String.lt_trans (hb a hab) (ha b hba)) (String.lt_irrefl _)
      subst hab
      have hnot : ∀ {l : List (String × α)}, (∀ e ∈ l, a.1 < e.1) → a ∉ l :=
        fun hl hm => String.lt_irrefl _ (hl a hm)
      rw [ih hes hes']
      intro e
      have := h e
      simp only [List.mem_cons] at this
      by_cases hea : e = a
      · subst hea
        exact ⟨fun hm => absurd hm (hnot ha), fun hm => absurd hm (hnot hb)⟩
      · simpa [hea] using this

/-- Maps that read alike are equal. -/
theorem ext_get? {m m' : SortedMap α} (h : ∀ k, m.get? k = m'.get? k) : m = m' := by
  obtain ⟨es, hs⟩ := m
  obtain ⟨es', hs'⟩ := m'
  have : es = es' := eq_of_sorted hs hs' fun ⟨k, v⟩ => by
    rw [mem_entries_iff (m := ⟨es, hs⟩), mem_entries_iff (m := ⟨es', hs'⟩), h]
  subst this
  rfl

/-! ### Maps of listed entries -/

/-- An entry behind all others is put at the end. -/
theorem insertEntry_of_lt {k : String} (v : α) {es : List (String × α)}
    (h : ∀ e ∈ es, e.1 < k) : insertEntry k v es = es ++ [(k, v)] := by
  induction es with
  | nil => rfl
  | cons e es ih =>
    have hlt : e.1 < k := h e List.mem_cons_self
    have hne : k ≠ e.1 := fun heq => String.lt_irrefl k (heq ▸ hlt)
    have hnlt : ¬k < e.1 := fun hgt => String.lt_irrefl k (String.lt_trans hgt hlt)
    rw [insertEntry, if_neg hnlt, if_neg hne, ih fun e' he' => h e' (List.mem_cons_of_mem e he')]
    rfl

/-- Entries that stand in order are put in one behind the other. -/
theorem foldl_insertEntry {front es : List (String × α)}
    (h : (front ++ es).Pairwise (·.1 < ·.1)) :
    es.foldl (fun es e => insertEntry e.1 e.2 es) front = front ++ es := by
  induction es generalizing front with
  | nil => exact (List.append_nil front).symm
  | cons e es ih =>
    have hlt : ∀ f ∈ front, f.1 < e.1 := fun f hf =>
      (List.pairwise_append.1 h).2.2 f hf e List.mem_cons_self
    rw [List.foldl_cons, insertEntry_of_lt e.2 hlt, ih]
    · rw [List.append_assoc, List.singleton_append]
    · rwa [List.append_assoc, List.singleton_append]

/-- The map of entries that stand in order has these entries. -/
theorem entries_ofList {es : List (String × α)} (h : es.Pairwise (·.1 < ·.1)) :
    (ofList es).entries = es := by
  have hentries : ∀ (es : List (String × α)) (m : SortedMap α),
      (es.foldl (fun m e => m.insert e.1 e.2) m).entries =
        es.foldl (fun es e => insertEntry e.1 e.2 es) m.entries := by
    intro es
    induction es with
    | nil => exact fun _ => rfl
    | cons e es ih => exact fun m => ih (m.insert e.1 e.2)
  rw [ofList, hentries, foldl_insertEntry h]
  rfl

/-- A map is the map of its entries. -/
theorem ofList_entries (m : SortedMap α) : ofList m.entries = m := by
  have h := entries_ofList m.sorted
  cases hm : ofList m.entries
  cases m
  simp_all

end SortedMap

end Gatehouse
