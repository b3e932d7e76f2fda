import Gatehouse.SortedMap
import Gatehouse.Storage.Error

/-!
# Tables of records

Records are grouped by their kind, and keys are unique within a kind. A kind whose last record is
deleted keeps an empty table.
-/

namespace Gatehouse.Storage

/-- For each kind, the records by their keys. -/
structure Tables where
  kinds : SortedMap (SortedMap Value)

namespace Tables

/-- No tables at all. -/
def empty : Tables := ⟨.empty⟩

instance : Inhabited Tables := ⟨empty⟩

/-- The record of a kind under a key, if there is one. -/
def find? (t : Tables) (kind key : String) : Option Value :=
  (t.kinds.get? kind).bind fun table => table.get? key

/-- Puts a record in, over the one that had its key. -/
def put (t : Tables) (kind key : String) (v : Value) : Tables :=
  ⟨t.kinds.insert kind (((t.kinds.get? kind).getD .empty).insert key v)⟩

/-- The record under a key. -/
def get (t : Tables) (kind key : String) : Except Error Value :=
  match t.find? kind key with
  | some v => .ok v
  | none => .error (.notFound kind key)

/-- The keys of a kind, in increasing order. -/
def list (t : Tables) (kind : String) : List String :=
  ((t.kinds.get? kind).map SortedMap.keys).getD []

/-- Takes a record out. -/
def delete (t : Tables) (kind key : String) : Except Error Tables :=
  match t.find? kind key with
  | some _ => .ok ⟨t.kinds.insert kind (((t.kinds.get? kind).getD .empty).erase key)⟩
  | none => .error (.notFound kind key)

/-- Nothing is stored in the empty tables. -/
theorem find?_empty (kind key : String) : empty.find? kind key = none := rfl

/-- A record that was put in is found, and all others as before. -/
theorem find?_put (t : Tables) (kind key : String) (v : Value) (kind' key' : String) :
    (t.put kind key v).find? kind' key' =
      if kind' = kind ∧ key' = key then some v else t.find? kind' key' := by
  simp only [find?, put, SortedMap.get?_insert]
  by_cases hk : kind' = kind
  · subst hk
    by_cases hkey : key' = key
    · simp [hkey]
    · cases h : t.kinds.get? kind' with
      | none => simp [hkey, SortedMap.get?_insert]
      | some table => simp [hkey, SortedMap.get?_insert]
  · simp [hk]

/-- A record that was taken out is not found, and all others as before. -/
theorem find?_delete {t t' : Tables} {kind key : String} (h : t.delete kind key = .ok t')
    (kind' key' : String) :
    t'.find? kind' key' = if kind' = kind ∧ key' = key then none else t.find? kind' key' := by
  simp only [delete] at h
  split at h
  · cases h
    simp only [find?, SortedMap.get?_insert]
    by_cases hk : kind' = kind
    · subst hk
      by_cases hkey : key' = key
      · simp [hkey, SortedMap.get?_erase]
      · cases h : t.kinds.get? kind' <;> simp [hkey, SortedMap.get?_erase]
    · simp [hk]
  · cases h

/-- The keys of a kind are those under which a record is found. -/
theorem mem_list {t : Tables} {kind key : String} :
    key ∈ t.list kind ↔ (t.find? kind key).isSome := by
  simp only [list, find?]
  cases h : t.kinds.get? kind with
  | none => simp
  | some table => simp [SortedMap.mem_keys]

/-- Keys are listed in strictly increasing order. -/
theorem list_sorted (t : Tables) (kind : String) : (t.list kind).Pairwise (· < ·) := by
  simp only [list]
  cases h : t.kinds.get? kind with
  | none => simp
  | some table => simpa using table.keys_sorted

end Tables

end Gatehouse.Storage
