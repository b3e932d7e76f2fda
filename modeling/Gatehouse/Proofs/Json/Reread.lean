import Gatehouse.Proofs.Json.Numeral
import Gatehouse.Proofs.Json.RoundTrip
import Mathlib.Data.List.Forall2

/-!
# Only faithful values are read back

The reverse of reading faithful values back: if what is read where a value was written is the value
again, the value is faithful. Where the text of an array or an object can be read at all, each of
its parts was read from its own text: nothing that stands between the parts continues a number, and
nothing that is left of a number can stand between the parts.

## Key results

- `itemsFrom_reveals`: what is read of items is read of each of them
- `fieldsFrom_yields`: the same for fields, whatever is made of them
- `reveals_of_wellformed`: the written form of a value is read as the value only if it is faithful
-/

namespace Gatehouse.Json

open Text (bytes)

/-! ### What a reading reveals -/

/-- Whether what is read of a value tells that the value is faithful. -/
def Tells (v w : Value) : Prop := w = v → Faithful v

/-- Whether a reading of the written form of a value ends with it, and tells whether the value is
    faithful, or else ends inside a number. -/
def Reveals (depth : Nat) (v : Value) : Prop :=
  ∀ rest w t, ¬NumberAhead rest → value depth (bytes (compactChars v) ++ rest) = .ok (w, t) →
    t = rest ∧ Tells v w ∨ NumberAhead t

/-- A faithful value that is read back reveals that it is faithful. -/
theorem reveals_of_readsBack {depth : Nat} {v : Value} (h : ReadsBack depth v)
    (hv : Faithful v) : Reveals depth v := by
  intro rest w t hrest hread
  rw [h rest (stopsNumber_of_not_numberAhead hrest)] at hread
  cases hread
  exact .inl ⟨rfl, fun _ => hv⟩

/-- A float is read from its own text, which tells whether it is read back when it stands alone. -/
theorem reveals_float (depth : Nat) (x : Float) : Reveals depth (.float x) := by
  intro rest w t hrest h
  change value depth (bytes (scalar (.float x)) ++ rest) = _ at h
  rcases scalar_float x with ⟨hchars, hne⟩ | hnone
  · have hbytes := isNumberByte_of_mem_bytes hchars
    obtain ⟨s', hsuffix, rfl, hread⟩ :=
      value_of_numberBytes hbytes (Text.bytes_ne_nil hne) hrest h
    cases s' with
    | nil =>
      refine .inl ⟨rfl, ?_⟩
      rintro rfl
      exact .float hread
    | cons b s' => exact .inr ⟨b, rfl, hbytes b (hsuffix.subset List.mem_cons_self)⟩
  · rcases hnone with hnone | hnone | hnone | hnone
    · rw [hnone] at h
      cases (value_null depth rest).symm.trans h
      exact .inl ⟨rfl, nofun⟩
    -- The other words cannot be read.
    · rw [hnone] at h
      change value depth (byte 'N' :: byte 'a' :: byte 'N' :: rest) = _ at h
      rw [value, skipBlanks_cons rfl] at h
      cases depth <;> cases h
    · rw [hnone] at h
      change value depth (byte '-' :: byte 'i' :: byte 'n' :: byte 'f' :: rest) = _ at h
      rw [value_minus] at h
      cases h
    · rw [hnone] at h
      change value depth (byte 'i' :: byte 'n' :: byte 'f' :: rest) = _ at h
      rw [value, skipBlanks_cons rfl] at h
      cases depth <;> cases h

/-! ### What stands between the parts -/

/-- Where a comma or a closing bracket is next, no number is. -/
theorem not_numberAhead_of_skipBlanks {s t : Bytes} {b : UInt8} (h : skipBlanks s = b :: t)
    (hb : b = byte ',' ∨ b = byte ']' ∨ b = byte '}') : ¬NumberAhead s := by
  rintro ⟨b', hb', hnumber⟩
  obtain ⟨hblank, hbegins⟩ := isBlankByte_of_isNumberByte hnumber
  obtain - | ⟨b'', s⟩ := s
  · cases hb'
  · cases hb'
    rw [skipBlanks_cons hblank] at h
    cases h
    rcases hb with rfl | rfl | rfl <;> revert hbegins <;> decide

/-- No byte of a number comes behind an item. -/
theorem not_numberAhead_compactItems (vs : List Value) (rest : Bytes) :
    ¬NumberAhead (bytes (compactItems vs) ++ rest) := by
  cases vs with
  | nil => exact not_numberAhead_of_skipBlanks rfl (.inr (.inl rfl))
  | cons v vs =>
    rw [bytes_compactItems_cons]
    exact not_numberAhead_of_skipBlanks rfl (.inl rfl)

/-- No byte of a number comes behind a field. -/
theorem not_numberAhead_compactFields (fs : List (String × Value)) (rest : Bytes) :
    ¬NumberAhead (bytes (compactFields fs) ++ rest) := by
  cases fs with
  | nil => exact not_numberAhead_of_skipBlanks rfl (.inr (.inr rfl))
  | cons f fs =>
    rw [bytes_compactFields_cons]
    exact not_numberAhead_of_skipBlanks rfl (.inl rfl)

/-! ### Items -/

/-- The first item is read from its own text, and what is read behind it are the other items. -/
theorem itemsFrom_first {depth n : Nat} {v : Value} {vs ws : List Value} {rest t : Bytes}
    (hv : Reveals depth v)
    (h : itemsFrom (value depth) n
      (bytes (compactChars v) ++ (bytes (compactItems vs) ++ rest)) = .ok (ws, t)) :
    ∃ w, Tells v w ∧ ((vs = [] ∧ ws = [w] ∧ t = rest) ∨ ∃ n' u us ws', vs = u :: us ∧
      ws = w :: ws' ∧ itemsFrom (value depth) n'
        (bytes (compactChars u) ++ (bytes (compactItems us) ++ rest)) = .ok (ws', t)) := by
  obtain ⟨n, w, s₁, b, s₂, rfl, hfirst, hskip, hbehind⟩ := itemsFrom_cases h
  rw [value_skipBlanks] at hfirst
  rcases hv _ w s₁ (not_numberAhead_compactItems vs rest) hfirst with ⟨rfl, htells⟩ | hahead
  · refine ⟨w, htells, ?_⟩
    -- Behind the last item stands the bracket, and behind any other a comma.
    cases vs with
    | nil =>
      cases hskip
      rcases hbehind with ⟨hcomma, -⟩ | ⟨-, rfl, rfl⟩
      · cases hcomma
      · exact .inl ⟨rfl, rfl, rfl⟩
    | cons u us =>
      rw [bytes_compactItems_cons, List.cons_append, List.append_assoc] at hskip
      cases hskip
      rcases hbehind with ⟨-, ws', hrest, rfl⟩ | ⟨hbracket, -⟩
      · exact .inr ⟨n, u, us, ws', rfl, rfl, hrest⟩
      · cases hbracket
  -- A reading that ends inside a number finds neither of them.
  · refine absurd hahead (not_numberAhead_of_skipBlanks hskip ?_)
    exact hbehind.imp And.left fun hbracket => .inl hbracket.1

/-- What is read of items is read of each of them. -/
theorem itemsFrom_reveals {depth : Nat} (vs : List Value) (rest : Bytes) :
    ∀ (v : Value) (n : Nat) (ws : List Value) (t : Bytes), (∀ u ∈ v :: vs, Reveals depth u) →
      itemsFrom (value depth) n
        (bytes (compactChars v) ++ (bytes (compactItems vs) ++ rest)) = .ok (ws, t) →
      t = rest ∧ List.Forall₂ Tells (v :: vs) ws := by
  induction vs with
  | nil =>
    intro v n ws t hreveals h
    obtain ⟨w, htells, ⟨-, rfl, rfl⟩ | ⟨_, _, _, _, hvs, -⟩⟩ :=
      itemsFrom_first (hreveals v List.mem_cons_self) h
    · exact ⟨rfl, .cons htells .nil⟩
    · cases hvs
  | cons u vs ih =>
    intro v n ws t hreveals h
    obtain ⟨w, htells, ⟨hvs, -⟩ | ⟨n', _, _, ws', hvs, rfl, hrest⟩⟩ :=
      itemsFrom_first (hreveals v List.mem_cons_self) h
    · cases hvs
    · cases hvs
      obtain ⟨rfl, hws⟩ := ih u n' ws' t (fun u hu => hreveals u (List.mem_cons_of_mem v hu)) hrest
      exact ⟨rfl, .cons htells hws⟩

/-! ### Fields -/

section Fields

variable {σ β : Type} {field : σ → String → Parser σ} {step : σ → String × β → σ}
  {R : Value → β → Prop}

/-- Whether reading the written form of a field ends with it and adds something read of its value to
    what was made of the fields before, or else ends inside a number. -/
def Yields (field : σ → String → Parser σ) (step : σ → String × β → σ) (R : Value → β → Prop)
    (f : String × Value) : Prop :=
  ∀ acc rest r t, ¬NumberAhead rest →
    field acc f.1 (byte ':' :: (bytes (compactChars f.2) ++ rest)) = .ok (r, t) →
    (t = rest ∧ ∃ w, R f.2 w ∧ r = step acc (f.1, w)) ∨ NumberAhead t

/-- Whether an entry has the name of a field and something that was read of its value. -/
def Entrywise (R : Value → β → Prop) (f : String × Value) (e : String × β) : Prop :=
  e.1 = f.1 ∧ R f.2 e.2

/-- To each field there is an entry. -/
theorem exists_entry {fs : List (String × Value)} {es : List (String × β)}
    (h : List.Forall₂ (Entrywise R) fs es) {k : String} {v : Value} (hv : (k, v) ∈ fs) :
    ∃ w, (k, w) ∈ es ∧ R v w := by
  induction h with
  | nil => cases hv
  | @cons f e fs es hfirst _ ih =>
    rcases List.mem_cons.1 hv with rfl | hv
    · obtain ⟨rfl, hw⟩ := hfirst
      exact ⟨e.2, List.mem_cons_self, hw⟩
    · obtain ⟨w, hmem, hw⟩ := ih hv
      exact ⟨w, List.mem_cons_of_mem e hmem, hw⟩

/-- Entries with the names of sorted fields are sorted. -/
theorem sorted_of_entrywise {fs : List (String × Value)} {es : List (String × β)}
    (h : List.Forall₂ (Entrywise R) fs es) (hs : fs.Pairwise (·.1 < ·.1)) :
    es.Pairwise (·.1 < ·.1) := by
  have hnames : es.map Prod.fst = fs.map Prod.fst := by
    clear hs
    induction h with
    | nil => rfl
    | cons h _ ih => rw [List.map_cons, List.map_cons, h.1, ih]
  rw [← List.pairwise_map (f := Prod.fst) (R := (· < ·)), hnames, List.pairwise_map]
  exact hs

/-- The first field is read from its own text, and what is read behind it are the other fields. -/
theorem fieldsFrom_first {n : Nat} {f : String × Value} {fs : List (String × Value)} {acc r : σ}
    {rest t : Bytes} (hf : Yields field step R f)
    (h : fieldsFrom field n acc (byte '"' :: (behindQuote f.1 ++
      byte ':' :: (bytes (compactChars f.2) ++ (bytes (compactFields fs) ++ rest)))) =
      .ok (r, t)) :
    ∃ e, Entrywise R f e ∧ ((fs = [] ∧ r = step acc e ∧ t = rest) ∨ ∃ n' g gs, fs = g :: gs ∧
      fieldsFrom field n' (step acc e) (byte '"' :: (behindQuote g.1 ++
        byte ':' :: (bytes (compactChars g.2) ++ (bytes (compactFields gs) ++ rest)))) =
        .ok (r, t)) := by
  obtain ⟨n, s₁, name, s₂, acc', s₃, b, s₄, rfl, hquote, hname, hfirst, hskip, hbehind⟩ :=
    fieldsFrom_cases h
  cases hquote
  -- The name is read as it was written.
  rw [textBehindQuote_behindQuote] at hname
  cases hname
  rcases hf acc _ acc' s₃ (not_numberAhead_compactFields fs rest) hfirst with
    ⟨rfl, w, hw, rfl⟩ | hahead
  · refine ⟨(f.1, w), ⟨rfl, hw⟩, ?_⟩
    -- Behind the last field stands the brace, and behind any other a comma.
    cases fs with
    | nil =>
      cases hskip
      rcases hbehind with ⟨hcomma, -⟩ | ⟨-, rfl, rfl⟩
      · cases hcomma
      · exact .inl ⟨rfl, rfl, rfl⟩
    | cons g gs =>
      rw [bytes_compactFields_cons] at hskip
      simp only [List.cons_append, List.append_assoc] at hskip
      cases hskip
      rcases hbehind with ⟨-, hrest⟩ | ⟨hbrace, -⟩
      · exact .inr ⟨n, g, gs, rfl, hrest⟩
      · cases hbrace
  -- A reading that ends inside a number finds neither of them.
  · refine absurd hahead (not_numberAhead_of_skipBlanks hskip ?_)
    exact hbehind.imp And.left fun hbrace => .inr hbrace.1

/-- What is read of fields is read of each of them. -/
theorem fieldsFrom_yields (fs : List (String × Value)) (rest : Bytes) :
    ∀ (f : String × Value) (n : Nat) (acc r : σ) (t : Bytes),
      (∀ g ∈ f :: fs, Yields field step R g) →
      fieldsFrom field n acc (byte '"' :: (behindQuote f.1 ++
        byte ':' :: (bytes (compactChars f.2) ++ (bytes (compactFields fs) ++ rest)))) =
        .ok (r, t) →
      t = rest ∧ ∃ es, List.Forall₂ (Entrywise R) (f :: fs) es ∧ r = es.foldl step acc := by
  induction fs with
  | nil =>
    intro f n acc r t hyields h
    obtain ⟨e, he, ⟨-, rfl, rfl⟩ | ⟨_, _, _, hfs, -⟩⟩ :=
      fieldsFrom_first (hyields f List.mem_cons_self) h
    · exact ⟨rfl, [e], .cons he .nil, rfl⟩
    · cases hfs
  | cons g fs ih =>
    intro f n acc r t hyields h
    obtain ⟨e, he, ⟨hfs, -⟩ | ⟨n', _, _, hfs, hrest⟩⟩ :=
      fieldsFrom_first (hyields f List.mem_cons_self) h
    · cases hfs
    · cases hfs
      obtain ⟨rfl, es, hes, rfl⟩ :=
        ih g n' _ r t (fun g hg => hyields g (List.mem_cons_of_mem f hg)) hrest
      exact ⟨rfl, e :: es, .cons he hes, rfl⟩

/-- What is read of an object behind its opening brace is read of its fields one by one. -/
theorem fields_yields {fs : List (String × Value)} {init r : σ} {rest s t : Bytes}
    (hfs : ∀ f ∈ fs, Yields field step R f)
    (hs : bytes (compactChars (.object fs)) ++ rest = byte '{' :: s)
    (h : fields init field s = .ok (r, t)) :
    t = rest ∧ ∃ es, List.Forall₂ (Entrywise R) fs es ∧ r = es.foldl step init := by
  cases fs with
  | nil =>
    rw [compactChars] at hs
    cases hs
    cases h
    exact ⟨rfl, [], .nil, rfl⟩
  | cons f fs =>
    rw [bytes_object_cons] at hs
    cases hs
    unfold fields at h
    exact fieldsFrom_yields fs rest f _ init r t hfs ((if_neg (by decide)).symm.trans h)

end Fields

/-! ### Values -/

/-- No value is written with a closing bracket in front. -/
theorem skipBlanks_compactChars {v : Value} (h : Wellformed v) {rest : Bytes}
    (hrest : StopsNumber rest) :
    ∃ b t, skipBlanks (bytes (compactChars v) ++ rest) = b :: t ∧ b ≠ byte ']' := by
  cases h with
  | null => exact skipBlanks_of_value (value_null 0 rest)
  | bool b => exact skipBlanks_of_value (value_bool b 0 rest)
  | int low high => exact skipBlanks_of_value (value_int low high 0 hrest)
  | text s => exact skipBlanks_of_value (value_text s 0 rest)
  -- How a float is read back is open here, but it begins with a byte of a number or a word.
  | float x =>
    change ∃ b t, skipBlanks (bytes (scalar (.float x)) ++ rest) = b :: t ∧ b ≠ byte ']'
    rcases scalar_float x with ⟨hchars, hne⟩ | hnone
    · have hbytes := isNumberByte_of_mem_bytes hchars
      obtain ⟨b, s, hs⟩ := List.exists_cons_of_ne_nil (Text.bytes_ne_nil hne)
      rw [hs] at hbytes ⊢
      obtain ⟨hblank, hbegins⟩ := isBlankByte_of_isNumberByte (hbytes b List.mem_cons_self)
      refine ⟨b, s ++ rest, skipBlanks_cons hblank _, ?_⟩
      rintro rfl
      revert hbegins
      decide
    · rcases hnone with hnone | hnone | hnone | hnone <;>
        exact hnone ▸ ⟨_, _, rfl, by decide⟩
  | @array vs _ => cases vs <;> exact ⟨_, _, rfl, by decide⟩
  | @object fs _ _ => cases fs <;> exact ⟨_, _, rfl, by decide⟩

/-- What is read of an array behind its opening bracket is read of its items. -/
theorem items_reveals {depth : Nat} {vs ws : List Value} {rest s t : Bytes}
    (hwell : ∀ v ∈ vs, Wellformed v) (hvs : ∀ v ∈ vs, Reveals depth v)
    (hs : bytes (compactChars (.array vs)) ++ rest = byte '[' :: s)
    (h : items (value depth) s = .ok (ws, t)) : t = rest ∧ List.Forall₂ Tells vs ws := by
  cases vs with
  | nil =>
    rw [compactChars] at hs
    cases hs
    cases h
    exact ⟨rfl, .nil⟩
  | cons v vs =>
    rw [bytes_array_cons] at hs
    cases hs
    obtain ⟨b, s, hskip, hb⟩ := skipBlanks_compactChars (hwell v List.mem_cons_self)
      (stopsNumber_compactItems vs rest)
    rw [items, hskip] at h
    have h := (if_neg hb).symm.trans h
    rw [← hskip, itemsFrom_skipBlanks] at h
    exact itemsFrom_reveals vs rest v _ ws t hvs h

/-- A field yields what its value reveals. -/
theorem yields_valueField {depth : Nat} {f : String × Value} (h : Reveals depth f.2) :
    Yields (valueField depth) (fun fs e => SortedMap.insertEntry e.1 e.2 fs) Tells f := by
  intro acc rest r t hrest hread
  obtain ⟨s, hcolon, hread⟩ := ok_of_bind hread
  cases hcolon
  obtain ⟨⟨w, t'⟩, hw, hread⟩ := ok_of_bind hread
  cases hread
  exact (h rest w t hrest hw).imp_left fun ⟨ht, htells⟩ => ⟨ht, w, htells, rfl⟩

/-- Values that are read as they are, and tell what that means, are faithful. -/
theorem forall_faithful_of_tells {vs : List Value} (h : List.Forall₂ Tells vs vs) :
    ∀ v ∈ vs, Faithful v :=
  fun v hv => List.forall₂_same.1 h v hv rfl

/-- The written form of a value is read as the value only if it is faithful. -/
theorem reveals_of_wellformed {v : Value} (h : Wellformed v) : ∀ depth, Reveals depth v := by
  induction h with
  | null => exact fun depth => reveals_of_readsBack (fun rest _ => value_null depth rest) .null
  | bool b =>
    exact fun depth => reveals_of_readsBack (fun rest _ => value_bool b depth rest) (.bool b)
  | int low high =>
    exact fun depth => reveals_of_readsBack
      (fun rest hrest => value_int low high depth hrest) (.int low high)
  | text s =>
    exact fun depth => reveals_of_readsBack (fun rest _ => value_text s depth rest) (.text s)
  | float x => exact fun depth => reveals_float depth x
  | @array vs hvs ih =>
    intro depth rest w t hrest h
    obtain ⟨s, hs⟩ : ∃ s, bytes (compactChars (.array vs)) ++ rest = byte '[' :: s := by
      cases vs <;> exact ⟨_, rfl⟩
    rw [hs] at h
    cases depth with
    | zero => cases h
    | succ depth =>
      rw [value_bracket] at h
      obtain ⟨⟨ws, t'⟩, hitems, h⟩ := ok_of_bind h
      cases h
      obtain ⟨rfl, htells⟩ := items_reveals hvs (fun v hv => ih v hv depth) hs hitems
      refine .inl ⟨rfl, fun hw => ?_⟩
      cases hw
      exact .array (forall_faithful_of_tells htells)
  | @object fs sorted hfs ih =>
    intro depth rest w t hrest h
    obtain ⟨s, hs⟩ : ∃ s, bytes (compactChars (.object fs)) ++ rest = byte '{' :: s := by
      cases fs <;> exact ⟨_, rfl⟩
    rw [hs] at h
    cases depth with
    | zero => cases h
    | succ depth =>
      rw [value_brace] at h
      obtain ⟨⟨gs, t'⟩, hfields, h⟩ := ok_of_bind h
      cases h
      have hyields := fun f hf => yields_valueField (ih f hf depth)
      obtain ⟨rfl, es, hes, rfl⟩ := fields_yields hyields hs hfields
      refine .inl ⟨rfl, fun hw => ?_⟩
      -- The names are those of the fields, so nothing was put out of its place.
      rw [SortedMap.foldl_insertEntry (sorted_of_entrywise hes sorted)] at hw
      cases hw
      exact .object sorted fun f hf => (List.forall₂_same.1 hes f hf).2 rfl

end Gatehouse.Json
