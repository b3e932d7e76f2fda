import Gatehouse.Proofs.Json.RoundTrip
import Gatehouse.Storage.Document

/-!
# Tables are read back

The document that tables are written to is read back as these tables, empty tables of a kind
included, if each record is read back where it stands: two objects enclose it, so its own nesting
may be two levels less deep than is read.

## Key results

- `decode_encode`: durable tables are read back from their document
-/

namespace Gatehouse.Storage

open Json (Faithful Puts ReadsBack StopsNumber byte)
open Text (bytes)

/-- A value that is read back as a record of a document. -/
def Storable (v : Value) : Prop := Faithful v ∧ v.depth + 2 ≤ Json.maxDepth

namespace Tables

/-- Tables all of whose records are read back. -/
def Durable (t : Tables) : Prop := ∀ kind key v, t.find? kind key = some v → Storable v

/-- Empty tables can be stored. -/
theorem durable_empty : Durable empty := by
  intro kind key v h
  cases h

/-- What holds of all records holds of them and of one that is put in. -/
theorem forall_find?_put {P : Value → Prop} {t : Tables}
    (h : ∀ kind key v, t.find? kind key = some v → P v) {v : Value} (hv : P v)
    (kind key : String) :
    ∀ kind' key' v', (t.put kind key v).find? kind' key' = some v' → P v' := by
  intro kind' key' v' h'
  rw [find?_put] at h'
  split at h'
  · cases h'
    exact hv
  · exact h kind' key' v' h'

/-- What holds of all records holds of those that are left. -/
theorem forall_find?_delete {P : Value → Prop} {t t' : Tables}
    (h : ∀ kind key v, t.find? kind key = some v → P v) {kind key : String}
    (hdelete : t.delete kind key = .ok t') :
    ∀ kind' key' v', t'.find? kind' key' = some v' → P v' := by
  intro kind' key' v' h'
  rw [find?_delete hdelete] at h'
  split at h'
  · cases h'
  · exact h kind' key' v' h'

/-- Tables can be stored with one more record that can be. -/
theorem Durable.put {t : Tables} (h : t.Durable) {v : Value} (hv : Storable v)
    (kind key : String) : (t.put kind key v).Durable := forall_find?_put h hv kind key

/-- Tables can be stored with one record less. -/
theorem Durable.delete {t t' : Tables} (h : t.Durable) {kind key : String}
    (hdelete : t.delete kind key = .ok t') : t'.Durable := forall_find?_delete h hdelete

end Tables

/-! ### One table -/

/-- An object whose fields are read one by one is read. -/
theorem object_compact {σ : Type} {depth : Nat} (field : Nat → σ → String → Json.Parser σ)
    {step : σ → String × Value → σ} {fs : List (String × Value)}
    (h : ∀ f ∈ fs, Puts (field depth) step f) (init : σ) (rest : Json.Bytes) :
    Json.object (depth + 1) init field (bytes (Json.compactChars (.object fs)) ++ rest) =
      .ok (fs.foldl step init, rest) := by
  obtain ⟨s, hs, hfields⟩ := Json.fields_compact h init rest
  rw [hs, Json.object, ← hfields]
  rfl

/-- What is made of a record. -/
def recordField (depth : Nat) : SortedMap Value → String → Json.Parser (SortedMap Value) :=
  fun table key s => do
    let (v, s) ← Json.value depth (← Json.colon s)
    return (table.insert key v, s)

/-- A record that is read back is put into the table of its kind. -/
theorem puts_recordField {depth : Nat} {e : String × Value} (h : ReadsBack depth e.2) :
    Puts (recordField depth) (fun table e => table.insert e.1 e.2) e := by
  intro acc rest hrest
  simp only [recordField, Json.colon_cons, bind, Except.bind, h rest hrest]
  rfl

/-- A table of records that are read back is read back. -/
theorem readTable_compact {depth : Nat} {table : SortedMap Value}
    (h : ∀ e ∈ table.entries, ReadsBack depth e.2) (rest : Json.Bytes) :
    readTable (depth + 1) (bytes (Json.compactChars (.object table.entries)) ++ rest) =
      .ok (table, rest) := by
  refine (object_compact recordField (fun e he => puts_recordField (h e he)) _ rest).trans ?_
  exact congrArg (fun t => Except.ok (t, rest)) table.ofList_entries

/-! ### All tables -/

/-- The table of a kind, from the value it is written as. -/
def tableOf : Value → SortedMap Value
  | .object fs => .ofList fs
  | _ => .empty

/-- What is made of a kind. -/
def kindField (depth : Nat) :
    SortedMap (SortedMap Value) → String → Json.Parser (SortedMap (SortedMap Value)) :=
  fun kinds kind s => do
    let (table, s) ← readTable depth (← Json.colon s)
    return (kinds.insert kind table, s)

/-- A kind whose records are read back is put in with its table. -/
theorem puts_kindField {depth : Nat} {kind : String} {table : SortedMap Value}
    (h : ∀ e ∈ table.entries, ReadsBack depth e.2) :
    Puts (kindField (depth + 1)) (fun kinds f => kinds.insert f.1 (tableOf f.2))
      (kind, .object table.entries) := by
  intro acc rest _
  simp only [kindField, Json.colon_cons, bind, Except.bind, readTable_compact h rest]
  rw [tableOf, SortedMap.ofList_entries]
  rfl

/-- Tables of records that are read back are read back. -/
theorem readTables_compact {depth : Nat} {t : Tables}
    (h : ∀ e ∈ t.kinds.entries, ∀ r ∈ e.2.entries, ReadsBack depth r.2) (rest : Json.Bytes) :
    readTables (depth + 2) (bytes (Json.compactChars t.toValue) ++ rest) = .ok (t.kinds, rest) := by
  have hputs : ∀ f ∈ t.kinds.entries.map fun e => (e.1, Value.object e.2.entries),
      Puts (kindField (depth + 1)) (fun kinds f => kinds.insert f.1 (tableOf f.2)) f := by
    intro f hf
    obtain ⟨e, he, rfl⟩ := List.mem_map.1 hf
    exact puts_kindField (h e he)
  refine (object_compact kindField hputs _ rest).trans ?_
  rw [List.foldl_map]
  simp only [tableOf, SortedMap.ofList_entries]
  exact congrArg (fun kinds => Except.ok (kinds, rest)) t.kinds.ofList_entries

namespace Tables

/-- A record is found if it stands in the table of its kind. -/
theorem find?_eq_some_iff {t : Tables} {kind key : String} {v : Value} :
    t.find? kind key = some v ↔
      ∃ table, (kind, table) ∈ t.kinds.entries ∧ (key, v) ∈ table.entries := by
  simp only [find?, Option.bind_eq_some_iff, SortedMap.mem_entries_iff]

/-- Tables are written as the object that they are. -/
theorem encode_eq (t : Tables) : t.encode = bytes (Json.compactChars t.toValue) := by
  rw [encode, Text.toList_toUTF8, Json.compact, String.toList_ofList]

/-- Durable tables are read back from their document. -/
theorem decode_encode {t : Tables} (h : t.Durable) : decode t.encode = .ok t := by
  have hback : ∀ e ∈ t.kinds.entries, ∀ r ∈ e.2.entries, ReadsBack (Json.maxDepth - 2) r.2 := by
    intro e he r hr
    have hfind : t.find? e.1 r.1 = some r.2 := find?_eq_some_iff.2 ⟨e.2, he, hr⟩
    obtain ⟨hfaithful, hdepth⟩ := h e.1 r.1 r.2 hfind
    exact Json.readsBack_of_faithful hfaithful _ (Nat.le_sub_of_add_le hdepth)
  have hread := readTables_compact hback []
  rw [show Json.maxDepth - 2 + 2 = Json.maxDepth from rfl, List.append_nil] at hread
  rw [decode, Json.whole, encode_eq, hread]
  rfl

end Tables

end Gatehouse.Storage
