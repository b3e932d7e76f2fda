/-!
# Dictionaries

`Dict κ ν` is a finite map whose order nobody can see: live token buckets, the nodes of a file
tree, counters with labels. It is a list of entries in which every key stands once; the proof of
that is a field. One lemma per operation says what the operation does to the view `get?`:

* `get?_empty`    nothing is in the empty dictionary
* `get?_insert`   the key inserted reads the new value, every other key what it read before
* `get?_erase`    the key erased reads nothing, every other key what it read before
* `get?_filter`   a kept entry reads as before, a dropped one reads nothing

A key takes one entry, so inserting a key that reads a value leaves the size.
-/

namespace Gatehouse

/-- A finite map as the list of its entries, each key once. -/
structure Dict (κ ν : Type) where
  entries : List (κ × ν)
  nodup : (entries.map Prod.fst).Nodup

namespace Dict

variable {κ ν : Type}

/-- Filtering leaves the keys distinct. -/
private theorem nodup_map_filter {es : List (κ × ν)} (h : (es.map Prod.fst).Nodup)
    (p : κ × ν → Bool) : ((es.filter p).map Prod.fst).Nodup :=
  h.sublist ((List.filter_sublist).map Prod.fst)

/-- The dictionary with nothing in it. -/
def empty : Dict κ ν := ⟨[], by simp⟩

instance : Inhabited (Dict κ ν) := ⟨empty⟩

/-- How many keys the dictionary holds. -/
def size (d : Dict κ ν) : Nat := d.entries.length

/-- Keeps the entries that `p` accepts. -/
def filter (d : Dict κ ν) (p : κ → ν → Bool) : Dict κ ν :=
  ⟨d.entries.filter fun e => p e.1 e.2, nodup_map_filter d.nodup _⟩

/-- Filtering adds no entry. -/
theorem size_filter_le (d : Dict κ ν) (p : κ → ν → Bool) : (d.filter p).size ≤ d.size :=
  List.length_filter_le _ d.entries

/-- A search is not disturbed by a filter that keeps all that is searched for. -/
private theorem find?_filter_of_imp {es : List (κ × ν)} {p q : κ × ν → Bool}
    (h : ∀ e, q e = true → p e = true) : (es.filter p).find? q = es.find? q := by
  induction es with
  | nil => rfl
  | cons e es ih => cases hp : p e <;> cases hq : q e <;> simp_all

variable [DecidableEq κ]

/-- The value a key reads. -/
def get? (d : Dict κ ν) (k : κ) : Option ν :=
  (d.entries.find? fun e => e.1 = k).map Prod.snd

/-- Takes the key out. -/
def erase (d : Dict κ ν) (k : κ) : Dict κ ν := d.filter fun k' _ => k' ≠ k

/-- Makes the key read the value. -/
def insert (d : Dict κ ν) (k : κ) (v : ν) : Dict κ ν :=
  ⟨(k, v) :: (d.erase k).entries, by
    simp only [List.map_cons, List.nodup_cons]
    exact ⟨by simp [erase, filter], (d.erase k).nodup⟩⟩

/-- The dictionary of a list of entries; the last of two entries of one key counts. -/
def ofList (es : List (κ × ν)) : Dict κ ν := es.foldl (fun d e => d.insert e.1 e.2) empty

/-- The empty dictionary reads nothing. -/
@[simp] theorem get?_empty (k : κ) : (empty : Dict κ ν).get? k = none := rfl

/-- A key that was taken out reads nothing, and the others read what they did. -/
theorem get?_erase (d : Dict κ ν) (k k' : κ) :
    (d.erase k).get? k' = if k' = k then none else d.get? k' := by
  by_cases h : k' = k
  · subst h
    simp [get?, erase, filter]
  · simp only [get?, erase, filter, if_neg h]
    rw [find?_filter_of_imp]
    intro e he
    simp only [decide_eq_true_eq] at he ⊢
    exact he ▸ h

/-- A key reads the value that it was given, and the others read what they did. -/
theorem get?_insert (d : Dict κ ν) (k : κ) (v : ν) (k' : κ) :
    (d.insert k v).get? k' = if k' = k then some v else d.get? k' := by
  by_cases h : k' = k
  · subst h
    simp [get?, insert]
  · have h' : ¬ k = k' := fun e => h e.symm
    have := d.get?_erase k k'
    simp only [get?, if_neg h] at this
    simp [get?, insert, h, h', this]

/-- A key reads the value that it was just given. -/
@[simp] theorem get?_insert_self (d : Dict κ ν) (k : κ) (v : ν) :
    (d.insert k v).get? k = some v := by
  simp [get?_insert]

/-- Other keys do not notice an insertion. -/
theorem get?_insert_ne (d : Dict κ ν) {k k' : κ} (v : ν) (h : k' ≠ k) :
    (d.insert k v).get? k' = d.get? k' := by
  simp [get?_insert, h]

/-- The entries are what the keys read, because no key stands in two of them. -/
theorem mem_entries_iff (d : Dict κ ν) (k : κ) (v : ν) :
    (k, v) ∈ d.entries ↔ d.get? k = some v := by
  obtain ⟨es, hn⟩ := d
  simp only [get?]
  induction es with
  | nil => simp
  | cons e es ih =>
    simp only [List.map_cons, List.nodup_cons] at hn
    by_cases h : e.1 = k
    · have : (k, v) ∉ es := fun hm => hn.1 (h ▸ List.mem_map_of_mem (f := Prod.fst) hm)
      simp only [List.mem_cons, this, or_false, List.find?_cons, h, decide_true, Option.map_some,
        Option.some.injEq]
      obtain ⟨a, b⟩ := e
      simp only at h
      simp [h, eq_comm]
    · have hne : (k, v) ≠ e := fun he => h (by rw [← he])
      simp [h, hne, ih hn.2]

/-- A key that reads a value has one entry. -/
theorem size_erase_of_isSome {d : Dict κ ν} {k : κ} (h : (d.get? k).isSome) :
    (d.erase k).size + 1 = d.size := by
  obtain ⟨v, hv⟩ := Option.isSome_iff_exists.1 h
  have hmem : k ∈ d.entries.map Prod.fst :=
    List.mem_map_of_mem (f := Prod.fst) ((d.mem_entries_iff k v).2 hv)
  have hone : d.entries.countP (fun e => decide (e.1 = k)) = 1 := by
    have hcount := d.nodup.count (a := k)
    rw [if_pos hmem, List.count_eq_countP, List.countP_map] at hcount
    exact hcount
  have hrest : (d.erase k).size = d.entries.countP fun e => decide ¬decide (e.1 = k) = true := by
    simp only [List.countP_eq_length_filter, size, erase, filter, ne_eq, decide_eq_true_eq]
  rw [hrest, Nat.add_comm, ← hone, size]
  exact (List.length_eq_countP_add_countP _).symm

/-- A new value for a key that is there makes the dictionary no larger. -/
theorem size_insert_of_isSome {d : Dict κ ν} {k : κ} (h : (d.get? k).isSome) (v : ν) :
    (d.insert k v).size = d.size := size_erase_of_isSome h

/-- A filter leaves a key its value, or nothing. -/
theorem get?_filter (d : Dict κ ν) (p : κ → ν → Bool) (k : κ) :
    (d.filter p).get? k = (d.get? k).filter (p k) := by
  apply Option.ext
  intro v
  rw [← mem_entries_iff]
  simp only [filter, List.mem_filter, Option.filter_eq_some_iff, mem_entries_iff]

end Dict

end Gatehouse
