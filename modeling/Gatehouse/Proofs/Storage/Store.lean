import Gatehouse.Dict
import Gatehouse.Proofs.Text.Bytes
import Gatehouse.Storage.Memory

/-!
# What a storage is to its callers

Whatever keeps the records, its callers see a store: it is open or closed, and some pairs of a kind
and a key have a value. Tables agree with the records of a store if they find the same values, and
then they answer alike.

## Key results

- `Store.mem_keys` / `Store.keys_sorted`: which keys are listed, and in which order
- `Agrees.put`, `Agrees.delete`: tables go on agreeing with the store as both are changed
- `Agrees.get_of_some`, `Agrees.get_of_none`, `Agrees.list`: tables answer as the store does
- `Memory.observe_eq`: a storage in memory cannot be told from a store
-/

namespace Gatehouse.Storage

/-- A storage as its callers see it: the values that pairs of a kind and a key have. -/
structure Store where
  isOpen : Bool := false
  records : Dict (String × String) Value := .empty

namespace Store

/-- The keys of a kind in the order of their bytes. -/
def keys (s : Store) (kind : String) : List String :=
  ((s.records.entries.filter fun e => e.1.1 = kind).map fun e => e.1.2).mergeSort
    fun k k' => k.toUTF8.toList ≤ k'.toUTF8.toList

/-- What happens unless the store is closed. -/
def whenOpen {α : Type} (s : Store) (r : Result α × Store) : Result α × Store :=
  if s.isOpen then r else (fail .notOpen, s)

/-- Makes a call. -/
def call (c : Call) (s : Store) : Result c.Reply × Store :=
  match c with
  | .openStore => if s.isOpen then (fail .alreadyOpen, s) else (.ok (), { s with isOpen := true })
  | .closeStore => s.whenOpen (.ok (), { s with isOpen := false })
  | .put kind key v => s.whenOpen (.ok (), { s with records := s.records.insert (kind, key) v })
  | .get kind key =>
    s.whenOpen <| match s.records.get? (kind, key) with
      | some v => (.ok v, s)
      | none => (fail (.notFound kind key), s)
  | .list kind => s.whenOpen (.ok (s.keys kind), s)
  | .delete kind key =>
    s.whenOpen <| match s.records.get? (kind, key) with
      | some _ => (.ok (), { s with records := s.records.erase (kind, key) })
      | none => (fail (.notFound kind key), s)

instance : Backend Store := ⟨call, isOpen⟩

/-- The store behind a new object, which is closed. -/
def renew (s : Store) : Store := { s with isOpen := false }

/-! ### Lists of keys -/

/-- The keys of a kind are those that have a record. -/
theorem mem_keys {s : Store} {kind key : String} :
    key ∈ s.keys kind ↔ (s.records.get? (kind, key)).isSome := by
  rw [keys, List.mem_mergeSort, Option.isSome_iff_exists]
  simp only [List.mem_map, List.mem_filter, decide_eq_true_eq, ← Dict.mem_entries_iff]
  constructor
  · rintro ⟨⟨⟨kind', key'⟩, v⟩, ⟨he, rfl⟩, rfl⟩
    exact ⟨v, he⟩
  · rintro ⟨v, he⟩
    exact ⟨_, ⟨he, rfl⟩, rfl⟩

/-- The keys of a kind are listed once each, in the order of their bytes. -/
theorem keys_sorted (s : Store) (kind : String) :
    (s.keys kind).Pairwise fun k k' => k.toUTF8.toList < k'.toUTF8.toList := by
  have hnodup : (s.keys kind).Nodup := by
    refine (List.mergeSort_perm _ _).symm.nodup (List.pairwise_map.2 ?_)
    refine (List.Pairwise.filter _ (List.pairwise_map.1 s.records.nodup)).imp_of_mem ?_
    -- Entries of one kind that differ in their pairs differ in their keys.
    intro e e' he he' hne hkey
    have hkind := of_decide_eq_true (List.mem_filter.1 he).2
    have hkind' := of_decide_eq_true (List.mem_filter.1 he').2
    exact hne (Prod.ext (hkind.trans hkind'.symm) hkey)
  have hsorted : (s.keys kind).Pairwise fun k k' => k ≤ k' := by
    refine (List.pairwise_mergeSort ?_ ?_ _).imp ?_
    · intro a b c hab hbc
      simp only [decide_eq_true_eq, ← Text.le_iff_toUTF8_le] at hab hbc ⊢
      exact String.le_trans hab hbc
    · intro a b
      simp only [Bool.or_eq_true, decide_eq_true_eq, ← Text.le_iff_toUTF8_le]
      exact String.le_total a b
    · intro a b hab
      simpa only [decide_eq_true_eq, ← Text.le_iff_toUTF8_le] using hab
  refine (hsorted.and hnodup).imp ?_
  rintro k k' ⟨hle, hne⟩
  rw [← Text.lt_iff_toUTF8_lt, ← String.not_le]
  exact fun hge => hne (String.le_antisymm hle hge)

/-- A list that has the keys of a kind in the order of their bytes is the one that is listed. -/
theorem eq_keys {s : Store} {kind : String} {ks : List String} (hsorted : ks.Pairwise (· < ·))
    (hmem : ∀ k, k ∈ ks ↔ k ∈ s.keys kind) : ks = s.keys kind := by
  have hkeys : (s.keys kind).Pairwise (· < ·) :=
    (s.keys_sorted kind).imp fun h => (Text.lt_iff_toUTF8_lt _ _).2 h
  exact Text.eq_of_pairwise_lt hsorted hkeys hmem

end Store

/-! ### Tables that agree with a store -/

/-- Whether tables hold the records of a store. -/
def Agrees (t : Tables) (s : Store) : Prop :=
  ∀ kind key, t.find? kind key = s.records.get? (kind, key)

namespace Agrees

variable {t t' : Tables} {s : Store}

/-- Empty tables agree with an empty store. -/
theorem empty : Agrees .empty {} := fun _ _ => rfl

/-- They agree still when a record is put into both. -/
theorem put (h : Agrees t s) (kind key : String) (v : Value) :
    Agrees (t.put kind key v) { s with records := s.records.insert (kind, key) v } := by
  intro kind' key'
  simp only [Tables.find?_put, Dict.get?_insert, Prod.mk.injEq, h kind' key']

/-- They agree still when a record is taken out of both. -/
theorem delete (h : Agrees t s) {kind key : String} (hdelete : t.delete kind key = .ok t') :
    Agrees t' { s with records := s.records.erase (kind, key) } := by
  intro kind' key'
  simp only [Tables.find?_delete hdelete, Dict.get?_erase, Prod.mk.injEq, h kind' key']

/-- They list the same keys in the same order. -/
theorem list (h : Agrees t s) (kind : String) : t.list kind = s.keys kind := by
  refine Store.eq_keys (t.list_sorted kind) fun key => ?_
  rw [Tables.mem_list, Store.mem_keys, h kind key]

/-- A record of the store is got from the tables. -/
theorem get_of_some (h : Agrees t s) {kind key : String} {v : Value}
    (hv : s.records.get? (kind, key) = some v) : t.get kind key = .ok v := by
  rw [Tables.get, h kind key, hv]

/-- What the store does not have is not found in the tables. -/
theorem get_of_none (h : Agrees t s) {kind key : String}
    (hv : s.records.get? (kind, key) = none) : t.get kind key = .error (.notFound kind key) := by
  rw [Tables.get, h kind key, hv]

/-- A record of the store can be deleted from the tables. -/
theorem delete_of_some (h : Agrees t s) {kind key : String} {v : Value}
    (hv : s.records.get? (kind, key) = some v) : ∃ t', t.delete kind key = .ok t' := by
  rw [Tables.delete, h kind key, hv]
  exact ⟨_, rfl⟩

/-- What the store does not have cannot be deleted from the tables. -/
theorem delete_of_none (h : Agrees t s) {kind key : String}
    (hv : s.records.get? (kind, key) = none) : t.delete kind key = .error (.notFound kind key) := by
  rw [Tables.delete, h kind key, hv]

end Agrees

/-! ### What callers see -/

/-- What callers do with a storage. -/
inductive Use
  | call (c : Call)
  | askOpen
  /-- A new object takes the place of the one there was. -/
  | renew

/-- What callers see of a storage. -/
inductive Sight
  | reply (c : Call) (r : Result c.Reply)
  | openness (isOpen : Bool)
  | renewed

section Observe

variable {σ τ : Type} [Backend σ] [Backend τ]

/-- Uses a storage once. -/
def use (renew : σ → σ) (u : Use) (s : σ) : Sight × σ :=
  match u with
  | .call c => (.reply c (Backend.call c s).1, (Backend.call c s).2)
  | .askOpen => (.openness (Backend.isOpen s), s)
  | .renew => (.renewed, renew s)

/-- What is seen of a storage that is used again and again. -/
def observe (renew : σ → σ) : List Use → σ → List Sight
  | [], _ => []
  | u :: us, s => (use renew u s).1 :: observe renew us (use renew u s).2

/-- Storages that look alike after each use look alike for good. -/
theorem observe_eq_of_simulation {renew : σ → σ} {renew' : τ → τ} {R : σ → τ → Prop}
    {P : Use → Prop}
    (step : ∀ u s t, P u → R s t →
      (use renew u s).1 = (use renew' u t).1 ∧ R (use renew u s).2 (use renew' u t).2)
    {uses : List Use} (huses : ∀ u ∈ uses, P u) {s : σ} {t : τ} (h : R s t) :
    observe renew uses s = observe renew' uses t := by
  -- Induction on the uses: the next one is seen alike and leaves storages that look alike.
  induction uses generalizing s t with
  | nil => rfl
  | cons u us ih =>
    obtain ⟨hsight, hnext⟩ := step u s t (huses u List.mem_cons_self) h
    rw [observe, observe, hsight, ih (fun u' hu' => huses u' (List.mem_cons_of_mem u hu')) hnext]

end Observe

/-! ### Storage in memory -/

namespace Memory

/-- A question does not change a storage in memory. -/
theorem reading_snd {α : Type} (m : Memory) (f : Tables → Except Error α) :
    (m.reading f).2 = m := by
  rw [reading]
  split <;> rfl

/-- Whether a storage in memory is as its callers see it. -/
def Represents (m : Memory) (s : Store) : Prop := m.isOpen = s.isOpen ∧ Agrees m.tables s

/-- Every call is answered as the store answers it. -/
theorem Represents.call {m : Memory} {s : Store} (h : Represents m s) (c : Call) :
    (m.call c).1 = (s.call c).1 ∧ Represents (m.call c).2 (s.call c).2 := by
  obtain ⟨hopen, hagrees⟩ := h
  -- Both are open or closed together, so each call splits once for the two of them.
  cases c with
  | openStore =>
    simp only [Memory.call, Store.call, hopen]
    split
    · exact ⟨rfl, hopen, hagrees⟩
    · exact ⟨rfl, rfl, hagrees⟩
  | closeStore =>
    simp only [Memory.call, Store.call, Store.whenOpen, hopen]
    split
    · exact ⟨rfl, rfl, hagrees⟩
    · exact ⟨rfl, hopen, hagrees⟩
  | put kind key v =>
    simp only [Memory.call, changing, Store.call, Store.whenOpen, hopen]
    split
    · exact ⟨rfl, rfl, hagrees.put kind key v⟩
    · exact ⟨rfl, hopen, hagrees⟩
  | get kind key =>
    simp only [Memory.call, reading, Store.call, Store.whenOpen, hopen]
    split
    · cases hv : s.records.get? (kind, key) with
      | some v =>
        rw [hagrees.get_of_some hv]
        exact ⟨rfl, hopen, hagrees⟩
      | none =>
        rw [hagrees.get_of_none hv]
        exact ⟨rfl, hopen, hagrees⟩
    · exact ⟨rfl, hopen, hagrees⟩
  | list kind =>
    simp only [Memory.call, reading, Store.call, Store.whenOpen, hopen]
    split
    · rw [hagrees.list]
      exact ⟨rfl, hopen, hagrees⟩
    · exact ⟨rfl, hopen, hagrees⟩
  | delete kind key =>
    simp only [Memory.call, changing, Store.call, Store.whenOpen, hopen]
    split
    · cases hv : s.records.get? (kind, key) with
      | some v =>
        obtain ⟨t', hdelete⟩ := hagrees.delete_of_some hv
        rw [hdelete]
        exact ⟨rfl, rfl, hagrees.delete hdelete⟩
      | none =>
        rw [hagrees.delete_of_none hv]
        exact ⟨rfl, hopen, hagrees⟩
    · exact ⟨rfl, hopen, hagrees⟩

/-- A storage in memory, kept for good, cannot be told from a store. -/
theorem observe_eq {uses : List Use} (h : .renew ∉ uses) :
    observe id uses ({} : Memory) = observe Store.renew uses ({} : Store) := by
  refine observe_eq_of_simulation (R := Represents) (P := (· ≠ .renew)) ?_ ?_ ⟨rfl, Agrees.empty⟩
  · intro u m s hu hms
    cases u with
    | call c =>
      obtain ⟨hreply, hnext⟩ := hms.call c
      exact ⟨congrArg (Sight.reply c) hreply, hnext⟩
    | askOpen => exact ⟨congrArg Sight.openness hms.1, hms⟩
    | renew => exact absurd rfl hu
  · rintro u hu rfl
    exact h hu

end Memory

end Gatehouse.Storage
