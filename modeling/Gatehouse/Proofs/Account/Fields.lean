import Gatehouse.Account.Basic
import Gatehouse.Proofs.Json.Number
import Mathlib.Algebra.Group.Nat.Defs

/-!
# The fields of an account

An account is stored as one object, in which its email address and the time of its creation stand
among its further fields. Reading takes the two out again by their names. So an object is an account
if the two have their types, and nothing is lost when it is read; but an account is read back from
its object only if none of its further fields has the name of one of the two, as it would stand in
the place of the account's own.

## Key results

- `SortedMap.get?_foldl_insert`: entries that are put in one by one take the place of older ones
- `Draft.exists_add` / `Draft.fits_of_add`: one field is read
- `ofValue_eq_ok_iff`: which account an object describes
- `toValue_of_describes`: the object that an account was read from is the one that it is stored as
- `ofValue_toValue_iff`: which accounts are read back from their objects
-/

namespace Gatehouse

/-! ### Entries that take the place of others -/

namespace SortedMap

variable {α : Type}

/-- Sorted entries that are inserted one by one go over those that were there. -/
private theorem get?_foldl_of_sorted {es : List (String × α)} (h : es.Pairwise (·.1 < ·.1))
    (m : SortedMap α) (k : String) :
    (es.foldl (fun m e => m.insert e.1 e.2) m).get? k =
      ((es.find? fun e => e.1 = k).map Prod.snd).or (m.get? k) := by
  induction es generalizing m with
  | nil => rfl
  | cons e es ih =>
    obtain ⟨hfirst, hrest⟩ := List.pairwise_cons.1 h
    rw [List.foldl_cons, ih hrest, get?_insert, List.find?_cons]
    by_cases hk : k = e.1
    · subst hk
      -- The entries behind have greater keys.
      have hnone : es.find? (fun e' => e'.1 = e.1) = none := by
        apply List.find?_eq_none.2
        intro e' he' heq
        have hlt := hfirst e' he'
        rw [of_decide_eq_true heq] at hlt
        exact String.lt_irrefl _ hlt
      simp [hnone]
    · have hk' : ¬e.1 = k := fun heq => hk heq.symm
      simp [hk, hk']

/-- Where the entries of one map are put into another, they take the place of those of their
    keys. -/
theorem get?_foldl_insert (m' m : SortedMap α) (k : String) :
    (m'.entries.foldl (fun m e => m.insert e.1 e.2) m).get? k = (m'.get? k).or (m.get? k) :=
  get?_foldl_of_sorted m'.sorted m k

end SortedMap

namespace Decode

/-- Only a text is decoded to a text. -/
theorem text_eq_ok_iff {v : Value} {s : String} : text v = .ok s ↔ v = .text s := by
  cases v <;> simp [text]

/-- Only an integer in the range is decoded to a natural number. -/
theorem unsigned_eq_ok_iff {bits n : Nat} {v : Value} :
    unsigned bits v = .ok n ↔ v = .int n ∧ n < 2 ^ bits := by
  cases v with
  | int i =>
    cases i with
    | negSucc k => simp [unsigned]
    | ofNat k =>
      have hpow : Nat.pow 2 bits = 2 ^ bits := rfl
      simp only [unsigned, hpow, Int.ofNat_eq_natCast, Value.int.injEq, Int.natCast_inj]
      by_cases h : k < 2 ^ bits
      · simp only [h, if_true, Except.ok.injEq]
        constructor
        · rintro rfl
          exact ⟨rfl, h⟩
        · exact And.left
      · simp only [h, if_false, reduceCtorEq, false_iff, not_and]
        rintro rfl
        exact h
  | _ => simp [unsigned]

end Decode

namespace Account

/-! ### One field after the other -/

/-- Whether a name is that of one of the account's own fields. -/
def IsOwn (name : String) : Prop := name = "email" ∨ name = "created"

instance : DecidablePred IsOwn := fun _ => inferInstanceAs (Decidable (_ ∨ _))

/-- Whether a field may stand in the object of an account: the account's own fields have a type. -/
structure Fits (name : String) (v : Value) : Prop where
  email : name = "email" → ∃ s, v = .text s
  created : name = "created" → ∃ n : Nat, v = .int n ∧ n < 2 ^ 64

namespace Draft

variable {d d' : Draft} {m : SortedMap Value} {name : String} {v : Value}

/-- Whether a draft holds what the fields in a map say. -/
structure Reads (d : Draft) (m : SortedMap Value) : Prop where
  email : m.get? "email" = d.email.map .text
  created : m.get? "created" = d.created.map fun n => .int n
  bounded : ∀ n ∈ d.created, n < 2 ^ 64
  extra : ∀ k, d.extra.get? k = if IsOwn k then none else m.get? k

/-- A draft with nothing in it holds what no fields say. -/
theorem reads_empty : Reads {} .empty where
  email := rfl
  created := rfl
  bounded := nofun
  extra k := by simp

/-- The account's own fields do not count among the further ones. -/
theorem Reads.extra_insert (h : d.Reads m) (hown : IsOwn name) (v : Value) (k : String) :
    d.extra.get? k = if IsOwn k then none else (m.insert name v).get? k := by
  rw [h.extra, SortedMap.get?_insert]
  by_cases hk : k = name
  · simp [hk, hown]
  · simp [hk]

/-- A field that fits is read, over one of the same name. -/
theorem exists_add (h : d.Reads m) (hfits : Fits name v) :
    ∃ d', d.add name v = .ok d' ∧ d'.Reads (m.insert name v) := by
  unfold add
  -- The account's own fields have a place and a type of their own.
  by_cases hemail : name = "email"
  · subst hemail
    obtain ⟨s, rfl⟩ := hfits.email rfl
    refine ⟨{ d with email := some s }, rfl, ?_, ?_, h.bounded, h.extra_insert (.inl rfl) _⟩
    · simp
    · simpa [SortedMap.get?_insert] using h.created
  · by_cases hcreated : name = "created"
    · subst hcreated
      obtain ⟨n, rfl, hn⟩ := hfits.created rfl
      have hread : Decode.unsigned 64 (.int n) = .ok n := Decode.unsigned_eq_ok_iff.2 ⟨rfl, hn⟩
      refine ⟨{ d with created := some n }, ?_, ?_, ?_, ?_, h.extra_insert (.inr rfl) _⟩
      · simp [hread, bind, Except.bind, pure, Except.pure]
      · simpa [SortedMap.get?_insert] using h.email
      · simp
      · intro n' hn'
        cases hn'
        exact hn
    -- Any other field is kept as it is, and hides neither of the two.
    · refine ⟨{ d with extra := d.extra.insert name v }, ?_, ?_, ?_, h.bounded, ?_⟩
      · simp [hemail, hcreated]
      · rw [SortedMap.get?_insert, if_neg (Ne.symm hemail)]
        exact h.email
      · rw [SortedMap.get?_insert, if_neg (Ne.symm hcreated)]
        exact h.created
      · intro k
        have hown : ¬IsOwn name := fun hown => hown.elim hemail hcreated
        rw [SortedMap.get?_insert, SortedMap.get?_insert, h.extra]
        by_cases hk : k = name
        · simp [hk, hown]
        · simp [hk]

/-- A field that was added has a type that fits. -/
theorem fits_of_add (h : d.add name v = .ok d') : Fits name v := by
  unfold add at h
  split at h
  · next hemail =>
    obtain ⟨s, hs, -⟩ := Json.ok_of_bind h
    refine ⟨fun _ => ⟨s, Decode.text_eq_ok_iff.1 hs⟩, fun hcreated => ?_⟩
    rw [hemail] at hcreated
    exact absurd hcreated (by decide)
  · next hemail =>
    split at h
    · obtain ⟨n, hn, -⟩ := Json.ok_of_bind h
      exact ⟨fun heq => absurd heq hemail, fun _ => ⟨n, Decode.unsigned_eq_ok_iff.1 hn⟩⟩
    · next hcreated => exact ⟨fun heq => absurd heq hemail, fun heq => absurd heq hcreated⟩

/-- Fields that fit are read one after the other. -/
theorem exists_foldlM_add {es : List (String × Value)} (h : d.Reads m)
    (hfits : ∀ f ∈ es, Fits f.1 f.2) :
    ∃ d', es.foldlM (fun d f => d.add f.1 f.2) d = .ok d' ∧
      d'.Reads (es.foldl (fun m e => m.insert e.1 e.2) m) := by
  -- Induction on the fields: the draft reads the map of those that were seen.
  induction es generalizing d m with
  | nil => exact ⟨d, rfl, h⟩
  | cons f es ih =>
    obtain ⟨d₁, hadd, h₁⟩ := exists_add h (hfits f List.mem_cons_self)
    obtain ⟨d', hrest, h'⟩ := ih h₁ fun f' hf' => hfits f' (List.mem_cons_of_mem f hf')
    refine ⟨d', ?_, h'⟩
    rw [List.foldlM_cons, hadd]
    exact hrest

/-- Fields that were added one by one have types that fit. -/
theorem fits_of_foldlM_add {es : List (String × Value)}
    (h : es.foldlM (fun d f => d.add f.1 f.2) d = .ok d') : ∀ f ∈ es, Fits f.1 f.2 := by
  induction es generalizing d with
  | nil => exact nofun
  | cons f es ih =>
    rw [List.foldlM_cons] at h
    obtain ⟨d₁, hadd, hrest⟩ := Json.ok_of_bind h
    exact List.forall_mem_cons.2 ⟨fits_of_add hadd, ih hrest⟩

end Draft

/-! ### From an object to an account -/

variable {a : Account} {m : SortedMap Value} {v : Value}

/-- Whether the fields in a map are those of an account. -/
structure Describes (m : SortedMap Value) (a : Account) : Prop where
  email : m.get? "email" = some (.text a.email)
  created : m.get? "created" = some (.int a.created) ∨ m.get? "created" = none ∧ a.created = 0
  bounded : a.created < 2 ^ 64
  extra : ∀ k, a.extra.get? k = if IsOwn k then none else m.get? k

/-- The two fields that have a type decide whether all fields fit. -/
theorem forall_fits_iff :
    (∀ f ∈ m.entries, Fits f.1 f.2) ↔
      (∀ v, m.get? "email" = some v → ∃ s, v = .text s) ∧
        ∀ v, m.get? "created" = some v → ∃ n : Nat, v = .int n ∧ n < 2 ^ 64 := by
  constructor
  · intro hfits
    constructor
    · intro v hv
      exact (hfits _ (SortedMap.mem_entries_iff.2 hv)).email rfl
    · intro v hv
      exact (hfits _ (SortedMap.mem_entries_iff.2 hv)).created rfl
  · intro ⟨hemail, hcreated⟩ f hf
    have hget : m.get? f.1 = some f.2 := SortedMap.mem_entries_iff.1 hf
    exact ⟨fun heq => hemail _ (heq ▸ hget), fun heq => hcreated _ (heq ▸ hget)⟩

/-- What is read of fields, one after the other, is what the map of them describes. -/
theorem describes_of_ofValue {es : List (String × Value)} (h : ofValue (.object es) = .ok a) :
    Describes (.ofList es) a := by
  obtain ⟨d, hfold, hfinish⟩ := Json.ok_of_bind h
  -- The draft that was decoded is the one that holds what the fields say.
  obtain ⟨d', hfold', hd⟩ :=
    Draft.exists_foldlM_add Draft.reads_empty (Draft.fits_of_foldlM_add hfold)
  obtain rfl : d = d' := by simpa [hfold] using hfold'
  rw [← SortedMap.ofList] at hd
  have hbounded := hd.bounded
  unfold Draft.finish at hfinish
  split at hfinish
  · next email hemail =>
    cases hfinish
    refine ⟨by rw [hd.email, hemail]; rfl, ?_, ?_, hd.extra⟩
    -- A time of creation that is missing counts as zero.
    · cases hn : d.created with
      | none => exact .inr ⟨by rw [hd.created, hn]; rfl, rfl⟩
      | some n => exact .inl (by rw [hd.created, hn]; rfl)
    · cases hn : d.created with
      | none => exact Nat.two_pow_pos 64
      | some n => exact hbounded n hn
  · cases hfinish

/-- The fields of an account all fit. -/
theorem Describes.forall_fits (h : Describes m a) : ∀ f ∈ m.entries, Fits f.1 f.2 := by
  apply forall_fits_iff.2
  constructor
  · intro v hv
    rw [h.email] at hv
    exact ⟨a.email, (Option.some.inj hv).symm⟩
  · intro v hv
    rcases h.created with hcreated | ⟨hcreated, -⟩
    · rw [hcreated] at hv
      exact ⟨a.created, (Option.some.inj hv).symm, h.bounded⟩
    · rw [hcreated] at hv
      cases hv

/-- A draft of the fields of an account is finished as this account. -/
theorem Describes.finish_eq (h : Describes m a) {d : Draft} (hd : d.Reads m) :
    d.finish = .ok a := by
  have hemail : d.email = some a.email := by
    obtain ⟨s, hs, htext⟩ := Option.map_eq_some_iff.1 (hd.email.symm.trans h.email)
    rw [hs, Value.text.inj htext]
  have hcreated : d.created.getD 0 = a.created := by
    rcases h.created with hread | ⟨hread, hzero⟩
    · obtain ⟨n, hn, hint⟩ := Option.map_eq_some_iff.1 (hd.created.symm.trans hread)
      rw [hn, Option.getD_some]
      exact Int.ofNat.inj (Value.int.inj hint)
    · rw [Option.map_eq_none_iff.1 (hd.created.symm.trans hread), hzero]
      rfl
  have hextra : d.extra = a.extra := SortedMap.ext_get? fun k => by rw [hd.extra, h.extra]
  unfold Draft.finish
  rw [hemail]
  simp only [hcreated, hextra]

/-- An object is read as the account that its fields describe, and as nothing else. -/
theorem ofValue_eq_ok_iff : ofValue (.object m.entries) = .ok a ↔ Describes m a := by
  constructor
  · intro h
    -- The map of the entries of a map is the map.
    have hdescribes := describes_of_ofValue h
    rwa [SortedMap.ofList_entries] at hdescribes
  · intro h
    obtain ⟨d, hfold, hd⟩ := Draft.exists_foldlM_add Draft.reads_empty h.forall_fits
    rw [← SortedMap.ofList, SortedMap.ofList_entries] at hd
    show (m.entries.foldlM (fun d f => d.add f.1 f.2) {} >>= Draft.finish) = .ok a
    rw [hfold]
    exact h.finish_eq hd

/-- Only an object is read as an account. -/
theorem exists_fields_of_ofValue (h : ofValue v = .ok a) : ∃ fields, v = .object fields := by
  cases v with
  | object fields => exact ⟨fields, rfl⟩
  | _ => cases h

/-- An object is an account if it has an email address that is a text, and no time of creation or
    one in the bounds. -/
theorem exists_describes_iff :
    (∃ a, Describes m a) ↔
      (∃ s, m.get? "email" = some (.text s)) ∧
        (m.get? "created" = none ∨ ∃ n : Nat, n < 2 ^ 64 ∧ m.get? "created" = some (.int n)) := by
  constructor
  · intro ⟨a, h⟩
    refine ⟨⟨a.email, h.email⟩, ?_⟩
    rcases h.created with hcreated | ⟨hcreated, -⟩
    · exact .inr ⟨a.created, h.bounded, hcreated⟩
    · exact .inl hcreated
  · intro ⟨⟨email, hemail⟩, hcreated⟩
    have hextra : ∀ k, ((m.erase "email").erase "created").get? k =
        if IsOwn k then none else m.get? k := by
      intro k
      rw [SortedMap.get?_erase, SortedMap.get?_erase]
      by_cases hk : k = "email" <;> by_cases hk' : k = "created" <;> simp [IsOwn, hk, hk']
    rcases hcreated with hcreated | ⟨n, hn, hcreated⟩
    · exact ⟨⟨email, 0, _⟩, hemail, .inr ⟨hcreated, rfl⟩, Nat.two_pow_pos 64, hextra⟩
    · exact ⟨⟨email, n, _⟩, hemail, .inl hcreated, hn, hextra⟩

/-! ### From an account to its object -/

/-- A further field stands in the place of the account's own. -/
theorem get?_fields (a : Account) (k : String) :
    a.fields.get? k = (a.extra.get? k).or
      (if k = "email" then some (.text a.email)
        else if k = "created" then some (.int a.created) else none) := by
  unfold fields
  rw [SortedMap.get?_foldl_insert, SortedMap.get?_insert, SortedMap.get?_insert,
    SortedMap.get?_empty]

/-- The fields with a time of creation, which is zero if there was none. -/
def withCreated (m : SortedMap Value) : SortedMap Value :=
  match m.get? "created" with
  | some _ => m
  | none => m.insert "created" (.int 0)

/-- A time of creation that is missing reads zero, and all other fields read what they did. -/
theorem get?_withCreated (m : SortedMap Value) (k : String) :
    (withCreated m).get? k =
      if k = "created" then some ((m.get? "created").getD (.int 0)) else m.get? k := by
  unfold withCreated
  cases h : m.get? "created" with
  | some v => by_cases hk : k = "created" <;> simp [hk, h]
  | none =>
    rw [SortedMap.get?_insert]
    rfl

/-- An account that was read is stored as the object that it was read from. -/
theorem toValue_of_describes (h : Describes m a) : a.toValue = .object (withCreated m).entries := by
  have hcreated : (m.get? "created").getD (.int 0) = .int a.created := by
    rcases h.created with hread | ⟨hmissing, hzero⟩
    · rw [hread, Option.getD_some]
    · rw [hmissing, hzero]
      rfl
  have hfields : a.fields = withCreated m := by
    apply SortedMap.ext_get?
    intro k
    rw [get?_fields, h.extra, get?_withCreated, hcreated]
    by_cases hemail : k = "email"
    · simp [IsOwn, hemail, h.email]
    · by_cases hk : k = "created" <;> simp [IsOwn, hemail, hk]
  unfold toValue
  rw [hfields]

/-- Whether no further field of an account has the name of one of its own. -/
def Unshadowed (a : Account) : Prop :=
  a.extra.get? "email" = none ∧ a.extra.get? "created" = none

/-- No further field of an account that was decoded has the name of one of its own. -/
theorem Describes.unshadowed (h : Describes m a) : a.Unshadowed :=
  ⟨h.extra "email", h.extra "created"⟩

/-- An account that was read has no such field. -/
theorem unshadowed_of_ofValue (h : ofValue v = .ok a) : a.Unshadowed ∧ a.created < 2 ^ 64 := by
  obtain ⟨fields, rfl⟩ := exists_fields_of_ofValue h
  have hdescribes := describes_of_ofValue h
  exact ⟨hdescribes.unshadowed, hdescribes.bounded⟩

/-- The fields of an account are those of an account, unless one shadows another. -/
theorem describes_fields (h : a.Unshadowed) (hcreated : a.created < 2 ^ 64) :
    Describes a.fields a where
  email := by simp [get?_fields, h.1]
  created := .inl (by simp [get?_fields, h.2])
  bounded := hcreated
  extra k := by
    rw [get?_fields]
    by_cases hemail : k = "email"
    · simp [IsOwn, hemail, h.1]
    · by_cases hk : k = "created"
      · simp [IsOwn, hk, h.2]
      · simp [IsOwn, hemail, hk]

/-- An account is read back from its object exactly if none of its further fields stands in the
    place of one of its own. -/
theorem ofValue_toValue_iff (hcreated : a.created < 2 ^ 64) :
    ofValue a.toValue = .ok a ↔ a.Unshadowed := by
  unfold toValue
  rw [ofValue_eq_ok_iff]
  constructor
  · exact Describes.unshadowed
  · intro h
    exact describes_fields h hcreated

end Account

end Gatehouse
