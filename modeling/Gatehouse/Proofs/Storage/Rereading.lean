import Gatehouse.Proofs.Json.Depth
import Gatehouse.Proofs.Json.Reread
import Gatehouse.Proofs.Storage.Document

/-!
# Only durable tables are read back

The reverse of reading durable tables back. Where the document of tables can be read at all,
something is read under every key that they have, and it is the record that was there only if this
is read back where it stands. A single record that is nested too deep makes the whole document
unreadable.

## Key results

- `tells_of_decode`: what is read under a key tells whether the record was faithful
- `wellformed_of_decode`: what is read is well-formed, and two levels less deep than is read
- `storable_of_decode`: tables that are read again unchanged are durable
- `decode_encode_of_deep`: one record that is nested too deep makes a document unreadable
-/

namespace Gatehouse.Storage

open Json (Entrywise Faithful Puts ReadsBack Refused Refuses Tells Wellformed Yields byte)
open Text (bytes)

/-! ### What is read of a document -/

/-- An object is read from its opening brace with one level less. -/
theorem object_brace {σ : Type} (depth : Nat) (init : σ) (field : Nat → σ → String → Json.Parser σ)
    (s : Json.Bytes) :
    Json.object (depth + 1) init field (byte '{' :: s) = Json.fields init (field depth) s := by
  rw [Json.object, Json.skipBlanks_cons rfl]
  rfl

/-- An object begins with a brace. -/
theorem exists_object_brace (fs : List (String × Value)) (rest : Json.Bytes) :
    ∃ s, bytes (Json.compactChars (.object fs)) ++ rest = byte '{' :: s := by
  cases fs <;> exact ⟨_, rfl⟩

/-- What is read of an object is read of its fields one by one. -/
theorem object_yields {σ β : Type} {depth : Nat} {field : Nat → σ → String → Json.Parser σ}
    {step : σ → String × β → σ} {R : Value → β → Prop} {fs : List (String × Value)} {init r : σ}
    {rest t : Json.Bytes} (hfs : ∀ d, ∀ f ∈ fs, Yields (field d) step R f)
    (h : Json.object depth init field (bytes (Json.compactChars (.object fs)) ++ rest) =
      .ok (r, t)) :
    t = rest ∧ ∃ es, List.Forall₂ (Entrywise R) fs es ∧ r = es.foldl step init := by
  obtain ⟨s, hs⟩ := exists_object_brace fs rest
  rw [hs] at h
  cases depth with
  | zero => cases h
  | succ depth =>
    rw [object_brace] at h
    exact Json.fields_yields (hfs depth) hs h

/-- A record is read into the table of its kind. -/
theorem yields_recordField {depth : Nat} {e : String × Value} (h : Wellformed e.2) :
    Yields (recordField depth) (fun table e => table.insert e.1 e.2) Tells e := by
  intro acc rest r t hrest hread
  obtain ⟨s, hcolon, hread⟩ := Json.ok_of_bind hread
  cases hcolon
  obtain ⟨⟨w, t'⟩, hw, hread⟩ := Json.ok_of_bind hread
  cases hread
  exact (Json.reveals_of_wellformed h depth rest w t hrest hw).imp_left
    fun ⟨ht, htells⟩ => ⟨ht, w, htells, rfl⟩

/-- What is read of a table are its records, or others by the same keys. -/
theorem readTable_tells {depth : Nat} {table m : SortedMap Value} {rest t : Json.Bytes}
    (hwell : ∀ e ∈ table.entries, Wellformed e.2)
    (h : readTable depth (bytes (Json.compactChars (.object table.entries)) ++ rest) =
      .ok (m, t)) :
    t = rest ∧ List.Forall₂ (Entrywise Tells) table.entries m.entries := by
  obtain ⟨rfl, es, hes, rfl⟩ := object_yields (fun d e he => yields_recordField (hwell e he)) h
  have hentries := SortedMap.entries_ofList (Json.sorted_of_entrywise hes table.sorted)
  rw [SortedMap.ofList] at hentries
  exact ⟨rfl, hentries.symm ▸ hes⟩

/-- Whether a table may be what is read of the records of a kind. -/
def ReadAs (v : Value) (m : SortedMap Value) : Prop :=
  ∃ fs, v = .object fs ∧ List.Forall₂ (Entrywise Tells) fs m.entries

/-- A kind is read with the table of its records. -/
theorem yields_kindField {depth : Nat} {kind : String} {table : SortedMap Value}
    (h : ∀ e ∈ table.entries, Wellformed e.2) :
    Yields (kindField depth) (fun kinds e => kinds.insert e.1 e.2) ReadAs
      (kind, .object table.entries) := by
  intro acc rest r t hrest hread
  obtain ⟨s, hcolon, hread⟩ := Json.ok_of_bind hread
  cases hcolon
  obtain ⟨⟨m, t'⟩, hm, hread⟩ := Json.ok_of_bind hread
  cases hread
  obtain ⟨ht, hread⟩ := readTable_tells h hm
  exact .inl ⟨ht, m, ⟨_, rfl, hread⟩, rfl⟩

namespace Tables

/-- Whether all records of tables are well-formed. -/
def Wellformed (t : Tables) : Prop :=
  ∀ kind key v, t.find? kind key = some v → Json.Wellformed v

/-- Tables that are read from what was written of others stand entry by entry beside them. -/
theorem readTables_tells {t : Tables} {kinds : SortedMap (SortedMap Value)} {depth : Nat}
    {rest s : Json.Bytes} (hwell : t.Wellformed)
    (h : readTables depth (bytes (Json.compactChars t.toValue) ++ rest) = .ok (kinds, s)) :
    List.Forall₂ (Entrywise ReadAs)
      (t.kinds.entries.map fun e => (e.1, .object e.2.entries)) kinds.entries := by
  have hyields (d : Nat) : ∀ f ∈ t.kinds.entries.map fun e => (e.1, Value.object e.2.entries),
      Yields (kindField d) (fun kinds e => kinds.insert e.1 e.2) ReadAs f := by
    intro f hf
    obtain ⟨⟨kind, table⟩, htable, rfl⟩ := List.mem_map.1 hf
    exact yields_kindField fun e he =>
      hwell kind e.1 e.2 (find?_eq_some_iff.2 ⟨table, htable, he⟩)
  obtain ⟨rfl, es, hes, rfl⟩ := object_yields hyields h
  have hsorted := Json.sorted_of_entrywise hes (List.pairwise_map.2 t.kinds.sorted)
  have hentries := SortedMap.entries_ofList hsorted
  rw [SortedMap.ofList] at hentries
  exact hentries.symm ▸ hes

/-- Tables that are decoded were read. -/
theorem exists_of_decode {s : Json.Bytes} {t : Tables} (h : decode s = .ok t) :
    ∃ rest, readTables Json.maxDepth s = .ok (t.kinds, rest) := by
  rw [decode, Json.whole] at h
  cases hread : readTables Json.maxDepth s with
  | error e =>
    rw [hread] at h
    cases h
  | ok r =>
    obtain ⟨kinds, rest⟩ := r
    simp only [hread, bind, Except.bind] at h
    split at h
    · cases h
      exact ⟨rest, rfl⟩
    · cases h

/-- Where tables are read again, something is read under every key they had, and tells whether the
    record was faithful. -/
theorem tells_of_decode {t t' : Tables} (hwell : t.Wellformed) (h : decode t.encode = .ok t')
    {kind key : String} {v : Value} (hv : t.find? kind key = some v) :
    ∃ w, t'.find? kind key = some w ∧ Tells v w := by
  obtain ⟨rest, hread⟩ := exists_of_decode h
  rw [encode_eq, ← List.append_nil (bytes _)] at hread
  obtain ⟨table, htable, hrecord⟩ := find?_eq_some_iff.1 hv
  obtain ⟨m, hm, fs, hfs, htells⟩ := Json.exists_entry (readTables_tells hwell hread)
    (List.mem_map_of_mem htable)
  cases hfs
  obtain ⟨w, hw, hvw⟩ := Json.exists_entry htells hrecord
  exact ⟨w, find?_eq_some_iff.2 ⟨m, hm, hw⟩, hvw⟩

end Tables

/-! ### What every reading keeps -/

/-- What does not fit is not read. -/
theorem mismatch_ne_ok {α : Type} (s : Json.Bytes) (r : α × Json.Bytes) :
    Json.mismatch s ≠ .ok r := by
  intro h
  rw [Json.mismatch] at h
  split at h
  · cases h
  · split at h
    · cases h
    · obtain ⟨_, -, h⟩ := Json.ok_of_bind h
      cases h

/-- Where an object is read, its fields are, with one level less. -/
theorem object_cases {σ : Type} {depth : Nat} {init r : σ}
    {field : Nat → σ → String → Json.Parser σ} {s t : Json.Bytes}
    (h : Json.object depth init field s = .ok (r, t)) :
    ∃ d s', depth = d + 1 ∧ Json.fields init (field d) s' = .ok (r, t) := by
  rw [Json.object] at h
  split at h
  · cases h
  · split at h
    · exact absurd h (mismatch_ne_ok _ _)
    · split at h
      · cases h
      · exact ⟨_, _, rfl, h⟩

section Keep

variable {P : Value → Prop} {depth : Nat}

/-- What holds of every value that is read holds of all records of a table that is. -/
theorem forall_of_readTable (hvalue : ∀ {s v t}, Json.value depth s = .ok (v, t) → P v)
    {s t : Json.Bytes} {table : SortedMap Value} (h : readTable (depth + 1) s = .ok (table, t)) :
    ∀ e ∈ table.entries, P e.2 := by
  obtain ⟨d, s', hd, h⟩ := object_cases h
  cases hd
  refine Json.invariant_of_fields (P := fun table => ∀ e ∈ table.entries, P e.2) ?_ nofun h
  intro table key s table' t htable hfield
  obtain ⟨s₁, -, hfield⟩ := Json.ok_of_bind hfield
  obtain ⟨⟨v, s₂⟩, hv, hfield⟩ := Json.ok_of_bind hfield
  cases hfield
  intro e he
  rcases SortedMap.mem_insertEntry he with rfl | he
  · exact hvalue hv
  · exact htable e he

/-- What every value is read with holds of all records. -/
theorem forall_of_readTables (hvalue : ∀ {s v t}, Json.value depth s = .ok (v, t) → P v)
    {s t : Json.Bytes} {kinds : SortedMap (SortedMap Value)}
    (h : readTables (depth + 2) s = .ok (kinds, t)) :
    ∀ e ∈ kinds.entries, ∀ r ∈ e.2.entries, P r.2 := by
  obtain ⟨d, s', hd, h⟩ := object_cases h
  cases hd
  refine Json.invariant_of_fields
    (P := fun kinds => ∀ e ∈ kinds.entries, ∀ r ∈ e.2.entries, P r.2) ?_ nofun h
  intro kinds kind s kinds' t hkinds hfield
  obtain ⟨s₁, -, hfield⟩ := Json.ok_of_bind hfield
  obtain ⟨⟨table, s₂⟩, htable, hfield⟩ := Json.ok_of_bind hfield
  cases hfield
  intro e he
  rcases SortedMap.mem_insertEntry he with rfl | he
  · exact forall_of_readTable hvalue htable
  · exact hkinds e he

end Keep

namespace Tables

/-- What is decoded is well-formed, and two levels less deep than is read. -/
theorem wellformed_of_decode {s : Json.Bytes} {t : Tables} (h : decode s = .ok t)
    {kind key : String} {v : Value} (hv : t.find? kind key = some v) :
    Json.Wellformed v ∧ v.depth + 2 ≤ Json.maxDepth := by
  obtain ⟨rest, hread⟩ := exists_of_decode h
  obtain ⟨table, htable, hrecord⟩ := find?_eq_some_iff.1 hv
  have hall : ∀ e ∈ t.kinds.entries, ∀ r ∈ e.2.entries,
      Json.Wellformed r.2 ∧ r.2.depth ≤ Json.maxDepth - 2 :=
    forall_of_readTables (fun hvalue => Json.wellformed_of_value hvalue) hread
  obtain ⟨hwell, hdepth⟩ := hall _ htable _ hrecord
  exact ⟨hwell, Nat.add_le_of_le_sub (by decide) hdepth⟩

/-- What is read again unchanged is read back record by record. -/
theorem storable_of_decode {t t' : Tables} (hwell : t.Wellformed) (h : decode t.encode = .ok t')
    (hsame : ∀ kind key v, t.find? kind key = some v → t'.find? kind key = some v) :
    t.Durable := by
  intro kind key v hv
  obtain ⟨w, hw, htells⟩ := tells_of_decode hwell h hv
  have hagain := hsame kind key v hv
  have hwv : w = v := Option.some.inj (hw.symm.trans hagain)
  exact ⟨htells hwv, (wellformed_of_decode h hagain).2⟩

end Tables

/-! ### Documents that are refused -/

/-- An object with a field that is refused is refused. -/
theorem object_refused {σ : Type} {depth : Nat} (field : Nat → σ → String → Json.Parser σ)
    {step : σ → String × Value → σ} {fs : List (String × Value)}
    (hall : ∀ f ∈ fs, Puts (field depth) step f ∨ Refuses (field depth) f)
    (hbad : ∃ f ∈ fs, Refuses (field depth) f) (init : σ) (rest : Json.Bytes) :
    Json.object (depth + 1) init field (bytes (Json.compactChars (.object fs)) ++ rest) =
      .error .malformed := by
  obtain ⟨s, hs, hfields⟩ := Json.fields_refused hall hbad init rest
  rw [hs, object_brace, hfields]

/-- A value that is refused is refused as a record. -/
theorem refuses_recordField {depth : Nat} {e : String × Value} (h : Refused depth e.2) :
    Refuses (recordField depth) e := by
  intro acc rest hrest
  simp only [recordField, Json.colon_cons, bind, Except.bind, h rest hrest]

/-- A table with a record that is refused is refused, if all others are read back or refused. -/
theorem refuses_kindField {depth : Nat} {kind : String} {table : SortedMap Value}
    (hall : ∀ e ∈ table.entries, ReadsBack depth e.2 ∨ Refused depth e.2)
    (hbad : ∃ e ∈ table.entries, Refused depth e.2) :
    Refuses (kindField (depth + 1)) (kind, .object table.entries) := by
  obtain ⟨e, he, hrefused⟩ := hbad
  intro acc rest hrest
  have htable : readTable (depth + 1)
      (bytes (Json.compactChars (.object table.entries)) ++ rest) = .error .malformed :=
    object_refused recordField
      (fun e he => (hall e he).imp puts_recordField refuses_recordField)
      ⟨e, he, refuses_recordField hrefused⟩ _ rest
  simp only [kindField, Json.colon_cons, bind, Except.bind, htable]

/-- One record that is nested too deep makes a document unreadable. -/
theorem Tables.decode_encode_of_deep {t : Tables}
    (hfaithful : ∀ kind key v, t.find? kind key = some v → Faithful v) (hdeep : ¬t.Durable) :
    decode t.encode = .error .malformed := by
  obtain ⟨kind, key, v, hv, hlt⟩ : ∃ kind key v, t.find? kind key = some v ∧
      Json.maxDepth - 2 < v.depth := by
    refine Classical.byContradiction fun hnone => hdeep fun kind key v hv => ?_
    refine ⟨hfaithful kind key v hv, Nat.add_le_of_le_sub (by decide) (Nat.le_of_not_lt ?_)⟩
    exact fun hlt => hnone ⟨kind, key, v, hv, hlt⟩
  -- Each record is read back or refused where it stands, and so is each table then.
  have hrecord : ∀ e ∈ t.kinds.entries, ∀ r ∈ e.2.entries,
      ReadsBack (Json.maxDepth - 2) r.2 ∨ Refused (Json.maxDepth - 2) r.2 := by
    intro e he r hr
    have hr := hfaithful e.1 r.1 r.2 (find?_eq_some_iff.2 ⟨e.2, he, hr⟩)
    rcases Nat.lt_or_ge (Json.maxDepth - 2) r.2.depth with hlt | hle
    · exact .inr (Json.refused_of_faithful hr _ hlt)
    · exact .inl (Json.readsBack_of_faithful hr _ hle)
  have htables : ∀ f ∈ t.kinds.entries.map fun e => (e.1, Value.object e.2.entries),
      Puts (kindField (Json.maxDepth - 2 + 1))
        (fun kinds f => kinds.insert f.1 (tableOf f.2)) f ∨
      Refuses (kindField (Json.maxDepth - 2 + 1)) f := by
    intro f hf
    obtain ⟨e, he, rfl⟩ := List.mem_map.1 hf
    by_cases hbad : ∃ r ∈ e.2.entries, Refused (Json.maxDepth - 2) r.2
    · exact .inr (refuses_kindField (hrecord e he) hbad)
    · exact .inl (puts_kindField fun r hr =>
        (hrecord e he r hr).resolve_right fun hrefused => hbad ⟨r, hr, hrefused⟩)
  obtain ⟨table, htable, hmem⟩ := find?_eq_some_iff.1 hv
  have hv := Json.refused_of_faithful (hfaithful kind key v hv) _ hlt
  have hread := object_refused kindField htables
    ⟨_, List.mem_map_of_mem htable, refuses_kindField (hrecord _ htable) ⟨_, hmem, hv⟩⟩ .empty []
  rw [decode, Json.whole, encode_eq, ← List.append_nil (bytes _)]
  rw [show readTables Json.maxDepth (bytes (Json.compactChars t.toValue) ++ []) = _ from hread]
  rfl

end Gatehouse.Storage
