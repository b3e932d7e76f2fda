import Gatehouse.Proofs.Json.Number
import Gatehouse.Proofs.Json.Text

/-!
# Values are read back

The compact form of a value is read back as the value, if its integers are within their bounds, its
floats are read back when they stand alone, the fields of its objects stand in increasing order,
and it is nested no deeper than is read.

## Key results

- `itemsFrom_compact`: items that are read back one by one are read back together
- `fieldsFrom_compact`: the same for fields, whatever is made of them
- `readsBack_of_faithful`: a faithful value that is not nested too deep is read back
-/

namespace Gatehouse.Json

open Text (bytes)

/-- A value as documents hold them: its integers are within their bounds, and the fields of its
    objects stand in increasing order. -/
inductive Wellformed : Value → Prop
  | null : Wellformed .null
  | bool (b : Bool) : Wellformed (.bool b)
  | int {n : Int} (low : -(Nat.pow 2 63 : Int) ≤ n) (high : n < (Nat.pow 2 64 : Int)) :
    Wellformed (.int n)
  | float (x : Float) : Wellformed (.float x)
  | text (s : String) : Wellformed (.text s)
  | array {vs : List Value} (items : ∀ v ∈ vs, Wellformed v) : Wellformed (.array vs)
  | object {fs : List (String × Value)} (sorted : fs.Pairwise (·.1 < ·.1))
    (fields : ∀ f ∈ fs, Wellformed f.2) : Wellformed (.object fs)

/-- A value all of whose parts are read back when they stand alone. -/
inductive Faithful : Value → Prop
  | null : Faithful .null
  | bool (b : Bool) : Faithful (.bool b)
  | int {n : Int} (low : -(Nat.pow 2 63 : Int) ≤ n) (high : n < (Nat.pow 2 64 : Int)) :
    Faithful (.int n)
  | float {x : Float} (back : value 0 (bytes (scalar (.float x))) = .ok (.float x, [])) :
    Faithful (.float x)
  | text (s : String) : Faithful (.text s)
  | array {vs : List Value} (items : ∀ v ∈ vs, Faithful v) : Faithful (.array vs)
  | object {fs : List (String × Value)} (sorted : fs.Pairwise (·.1 < ·.1))
    (fields : ∀ f ∈ fs, Faithful f.2) : Faithful (.object fs)

/-- Values that are read back as they are written are well formed. -/
theorem Faithful.wellformed {v : Value} (h : Faithful v) : Wellformed v := by
  induction h with
  | null => exact .null
  | bool b => exact .bool b
  | int low high => exact .int low high
  | float => exact .float _
  | text s => exact .text s
  | array _ ih => exact .array ih
  | object sorted _ ih => exact .object sorted ih

/-- Whether a value is read back before whatever stops a number. -/
def ReadsBack (depth : Nat) (v : Value) : Prop :=
  ∀ rest, StopsNumber rest → value depth (bytes (compactChars v) ++ rest) = .ok (v, rest)

/-! ### What stands between the parts -/

/-- A comma, a bracket and a brace each end a number. -/
theorem stopsNumber_cons {b : UInt8} (h : b = byte ',' ∨ b = byte ']' ∨ b = byte '}') (s : Bytes) :
    StopsNumber (b :: s) := by
  intro b' hb'
  cases hb'
  rcases h with rfl | rfl | rfl <;> decide

/-- Each further item comes behind a comma. -/
theorem bytes_compactItems_cons (v : Value) (vs : List Value) :
    bytes (compactItems (v :: vs)) =
      byte ',' :: (bytes (compactChars v) ++ bytes (compactItems vs)) := by
  rw [compactItems, Text.bytes_append, Text.bytes_cons]
  rfl

/-- Each further field comes behind a comma, its name in quotes and its value behind a colon. -/
theorem bytes_compactFields_cons (f : String × Value) (fs : List (String × Value)) :
    bytes (compactFields (f :: fs)) = byte ',' :: byte '"' :: (behindQuote f.1 ++
      byte ':' :: (bytes (compactChars f.2) ++ bytes (compactFields fs))) := by
  obtain ⟨k, v⟩ := f
  rw [compactFields, Text.bytes_append, Text.bytes_append, Text.bytes_cons, bytes_quoted,
    Text.bytes_cons]
  simp only [List.append_assoc, List.cons_append]
  rfl

/-- The first item of an array comes behind the bracket. -/
theorem bytes_array_cons (v : Value) (vs : List Value) (rest : Bytes) :
    bytes (compactChars (.array (v :: vs))) ++ rest =
      byte '[' :: (bytes (compactChars v) ++ (bytes (compactItems vs) ++ rest)) := by
  rw [compactChars, Text.bytes_append, Text.bytes_cons]
  simp only [List.append_assoc]
  rfl

/-- The first field of an object comes behind the brace. -/
theorem bytes_object_cons (f : String × Value) (fs : List (String × Value)) (rest : Bytes) :
    bytes (compactChars (.object (f :: fs))) ++ rest =
      byte '{' :: byte '"' :: (behindQuote f.1 ++ byte ':' :: (bytes (compactChars f.2) ++
        (bytes (compactFields fs) ++ rest))) := by
  obtain ⟨k, v⟩ := f
  rw [compactChars, Text.bytes_append, Text.bytes_append, Text.bytes_cons, bytes_quoted,
    Text.bytes_cons]
  simp only [List.append_assoc, List.cons_append]
  rfl

/-- What comes behind an item ends a number: a comma or the bracket. -/
theorem stopsNumber_compactItems (vs : List Value) (rest : Bytes) :
    StopsNumber (bytes (compactItems vs) ++ rest) := by
  cases vs with
  | nil => exact stopsNumber_cons (.inr (.inl rfl)) rest
  | cons v vs =>
    rw [bytes_compactItems_cons]
    exact stopsNumber_cons (.inl rfl) _

/-- What comes behind a field ends a number: a comma or the brace. -/
theorem stopsNumber_compactFields (fs : List (String × Value)) (rest : Bytes) :
    StopsNumber (bytes (compactFields fs) ++ rest) := by
  cases fs with
  | nil => exact stopsNumber_cons (.inr (.inr rfl)) rest
  | cons f fs =>
    rw [bytes_compactFields_cons]
    exact stopsNumber_cons (.inl rfl) _

/-- There are more bytes than items, so the reader does not run out of fuel. -/
theorem length_lt_compactItems (vs : List Value) :
    vs.length < (bytes (compactItems vs)).length := by
  induction vs with
  | nil => decide
  | cons v vs ih =>
    rw [bytes_compactItems_cons]
    simp only [List.length_cons, List.length_append]
    omega

/-- There are more bytes than fields, so the reader does not run out of fuel. -/
theorem length_lt_compactFields (fs : List (String × Value)) :
    fs.length < (bytes (compactFields fs)).length := by
  induction fs with
  | nil => decide
  | cons f fs ih =>
    rw [bytes_compactFields_cons]
    simp only [List.length_cons, List.length_append]
    omega

/-! ### Items -/

section Items

variable {α : Type} {item : Parser α}

/-- Behind an item and a comma, the other items are read. -/
theorem itemsFrom_comma {s t : Bytes} {a : α} (h : item (skipBlanks s) = .ok (a, byte ',' :: t))
    (n : Nat) :
    itemsFrom item (n + 1) s = itemsFrom item n t >>= fun r => .ok (a :: r.1, r.2) := by
  rw [itemsFrom, h]
  rfl

/-- The item in front of the bracket is the last one. -/
theorem itemsFrom_bracket {s t : Bytes} {a : α} (h : item (skipBlanks s) = .ok (a, byte ']' :: t))
    (n : Nat) : itemsFrom item (n + 1) s = .ok ([a], t) := by
  rw [itemsFrom, h]
  rfl

/-- Where items are read, the first of them is, and a comma or the closing bracket behind it. -/
theorem itemsFrom_cases {n : Nat} {s t : Bytes} {as : List α}
    (h : itemsFrom item n s = .ok (as, t)) :
    ∃ n' a s' b s'', n = n' + 1 ∧ item (skipBlanks s) = .ok (a, s') ∧ skipBlanks s' = b :: s'' ∧
      ((b = byte ',' ∧ ∃ as', itemsFrom item n' s'' = .ok (as', t) ∧ as = a :: as') ∨
        (b = byte ']' ∧ as = [a] ∧ t = s'')) := by
  cases n with
  | zero => cases h
  | succ n =>
    rw [itemsFrom] at h
    obtain ⟨⟨a, s'⟩, hfirst, h⟩ := ok_of_bind h
    dsimp only at h
    split at h
    · cases h
    · next b s'' hskip =>
      -- Behind an item stands a comma or the closing bracket, or the reading fails.
      refine ⟨n, a, s', b, s'', rfl, hfirst, hskip, ?_⟩
      split at h
      · next hcomma =>
        obtain ⟨⟨as', t'⟩, hrest, h⟩ := ok_of_bind h
        cases h
        exact .inl ⟨hcomma, as', hrest, rfl⟩
      · split at h
        · next hbracket =>
          cases h
          exact .inr ⟨hbracket, rfl, rfl⟩
        · cases h

/-- Blanks in front of an item are passed over. -/
theorem itemsFrom_skipBlanks (n : Nat) (s : Bytes) :
    itemsFrom item n (skipBlanks s) = itemsFrom item n s := by
  cases n with
  | zero => rfl
  | succ n => rw [itemsFrom, itemsFrom, skipBlanks_skipBlanks]

end Items

/-- Items that are read back one by one are read back together. -/
theorem itemsFrom_compact {depth : Nat} (vs : List Value) (rest : Bytes) :
    ∀ (v : Value) (n : Nat), (∀ w ∈ v :: vs, ReadsBack depth w) → vs.length < n →
      itemsFrom (value depth) n
        (bytes (compactChars v) ++ (bytes (compactItems vs) ++ rest)) = .ok (v :: vs, rest) := by
  -- By induction on the items behind the first one, each of which costs one step.
  induction vs with
  | nil =>
    intro v n hback hn
    obtain ⟨n, rfl⟩ := Nat.exists_eq_add_one_of_ne_zero (Nat.ne_of_gt hn)
    have hv := hback v List.mem_cons_self _ (stopsNumber_compactItems [] rest)
    rw [← value_skipBlanks] at hv
    exact itemsFrom_bracket hv n
  | cons w vs ih =>
    intro v n hback hn
    obtain ⟨n, rfl⟩ := Nat.exists_eq_add_one_of_ne_zero (Nat.ne_of_gt (Nat.zero_lt_of_lt hn))
    have hv := hback v List.mem_cons_self _ (stopsNumber_compactItems (w :: vs) rest)
    have ih := ih w n (fun u hu => hback u (List.mem_cons_of_mem v hu)) (Nat.lt_of_succ_lt_succ hn)
    rw [← value_skipBlanks] at hv
    rw [bytes_compactItems_cons, List.cons_append, List.append_assoc] at hv ⊢
    rw [itemsFrom_comma hv, ih]
    rfl

/-- What is read as a value does not begin with a closing bracket. -/
theorem skipBlanks_of_value {depth : Nat} {s : Bytes} {r : Value × Bytes}
    (h : value depth s = .ok r) : ∃ b t, skipBlanks s = b :: t ∧ b ≠ byte ']' := by
  cases hskip : skipBlanks s with
  | nil =>
    rw [value, hskip] at h
    cases h
  | cons b t =>
    refine ⟨b, t, rfl, ?_⟩
    rintro rfl
    rw [value, hskip] at h
    cases depth <;> cases h

/-- Blanks are skipped at most up to bytes that do not begin with one. -/
theorem length_le_skipBlanks {s t : Bytes} (h : skipBlanks t = t) :
    t.length ≤ (skipBlanks (s ++ t)).length := by
  unfold skipBlanks at h ⊢
  rw [List.dropWhile_append]
  split
  · exact Nat.le_of_eq (congrArg List.length h.symm)
  · rw [List.length_append]
    exact Nat.le_add_left _ _

/-- No blanks are written behind an item. -/
theorem skipBlanks_compactItems (vs : List Value) (rest : Bytes) :
    skipBlanks (bytes (compactItems vs) ++ rest) = bytes (compactItems vs) ++ rest := by
  cases vs with
  | nil => rfl
  | cons v vs =>
    rw [bytes_compactItems_cons]
    rfl

/-- Where the first of the items can be read the array does not end at once, and there are fewer
    items than bytes, so the steps do not run out. -/
theorem exists_items_eq {α : Type} (item : Parser α) {depth : Nat} {v : Value} {vs : List Value}
    {rest : Bytes} {r : Value × Bytes}
    (hv : value depth (bytes (compactChars v) ++ (bytes (compactItems vs) ++ rest)) = .ok r) :
    ∃ n, vs.length < n ∧
      items item (bytes (compactChars v) ++ (bytes (compactItems vs) ++ rest)) =
        itemsFrom item n (bytes (compactChars v) ++ (bytes (compactItems vs) ++ rest)) := by
  obtain ⟨b, t, hskip, hb⟩ := skipBlanks_of_value hv
  refine ⟨(b :: t).length, ?_, ?_⟩
  · have := length_le_skipBlanks (s := bytes (compactChars v)) (skipBlanks_compactItems vs rest)
    have := length_lt_compactItems vs
    rw [List.length_append, hskip] at *
    omega
  · rw [items, hskip]
    refine (if_neg hb).trans ?_
    rw [← itemsFrom_skipBlanks _ (bytes _ ++ _), hskip]

/-- Items that are read back one by one are read back together. -/
theorem items_compact {depth : Nat} {vs : List Value} (h : ∀ v ∈ vs, ReadsBack depth v)
    (rest : Bytes) :
    ∃ s, bytes (compactChars (.array vs)) ++ rest = byte '[' :: s ∧
      items (value depth) s = .ok (vs, rest) := by
  cases vs with
  | nil => exact ⟨byte ']' :: rest, by rw [compactChars]; rfl, rfl⟩
  | cons v vs =>
    refine ⟨bytes (compactChars v) ++ (bytes (compactItems vs) ++ rest), ?_, ?_⟩
    · exact bytes_array_cons v vs rest
    · have hv := h v List.mem_cons_self _ (stopsNumber_compactItems vs rest)
      obtain ⟨n, hn, heq⟩ := exists_items_eq (value depth) hv
      rw [heq]
      exact itemsFrom_compact vs rest v n h hn

/-! ### Fields -/

section Fields

variable {σ : Type} {field : σ → String → Parser σ}

/-- Behind a field and a comma, the other fields are read. -/
theorem fieldsFrom_comma {acc acc' : σ} {k : String} {s t : Bytes}
    (h : field acc k s = .ok (acc', byte ',' :: t)) (n : Nat) :
    fieldsFrom field (n + 1) acc (byte '"' :: (behindQuote k ++ s)) =
      fieldsFrom field n acc' t := by
  rw [fieldsFrom, skipBlanks_cons rfl]
  simp only [ne_eq, not_true_eq_false, if_false, textBehindQuote_behindQuote, bind, Except.bind, h]
  rfl

/-- The field in front of the brace is the last one. -/
theorem fieldsFrom_brace {acc acc' : σ} {k : String} {s t : Bytes}
    (h : field acc k s = .ok (acc', byte '}' :: t)) (n : Nat) :
    fieldsFrom field (n + 1) acc (byte '"' :: (behindQuote k ++ s)) = .ok (acc', t) := by
  rw [fieldsFrom, skipBlanks_cons rfl]
  simp only [ne_eq, not_true_eq_false, if_false, textBehindQuote_behindQuote, bind, Except.bind, h]
  rfl

/-- Where fields are read, the first of them is, and a comma or the closing brace behind it. -/
theorem fieldsFrom_cases {n : Nat} {acc r : σ} {s t : Bytes}
    (h : fieldsFrom field n acc s = .ok (r, t)) :
    ∃ n' s₁ name s₂ acc' s₃ b s₄, n = n' + 1 ∧ skipBlanks s = byte '"' :: s₁ ∧
      textBehindQuote s₁ = .ok (name, s₂) ∧ field acc name s₂ = .ok (acc', s₃) ∧
      skipBlanks s₃ = b :: s₄ ∧
      ((b = byte ',' ∧ fieldsFrom field n' acc' s₄ = .ok (r, t)) ∨
        (b = byte '}' ∧ r = acc' ∧ t = s₄)) := by
  cases n with
  | zero => cases h
  | succ n =>
    rw [fieldsFrom] at h
    split at h
    · cases h
    · next q s₁ hquote =>
      split at h
      · cases h
      · next hq =>
        obtain ⟨⟨name, s₂⟩, hname, h⟩ := ok_of_bind h
        obtain ⟨⟨acc', s₃⟩, hfirst, h⟩ := ok_of_bind h
        dsimp only at h
        split at h
        · cases h
        -- Behind a field, one byte decides whether there are more.
        · next b s₄ hskip =>
          rw [Decidable.not_not.1 hq] at hquote
          refine ⟨n, s₁, name, s₂, acc', s₃, b, s₄, rfl, hquote, hname, hfirst, hskip, ?_⟩
          split at h
          · next hcomma => exact .inl ⟨hcomma, h⟩
          · split at h
            · next hbrace =>
              cases h
              exact .inr ⟨hbrace, rfl, rfl⟩
            · cases h

/-- A colon is read as what it is. -/
theorem colon_cons (s : Bytes) : colon (byte ':' :: s) = .ok s := rfl

/-- What a field adds to what was made of the fields before it, whatever comes behind. -/
def Puts (field : σ → String → Parser σ) (step : σ → String × Value → σ) (f : String × Value) :
    Prop :=
  ∀ acc rest, StopsNumber rest →
    field acc f.1 (byte ':' :: (bytes (compactChars f.2) ++ rest)) = .ok (step acc f, rest)

/-- Fields that are read one by one are read together. -/
theorem fieldsFrom_compact {step : σ → String × Value → σ} (fs : List (String × Value))
    (rest : Bytes) : ∀ (f : String × Value) (acc : σ) (n : Nat),
      (∀ g ∈ f :: fs, Puts field step g) → fs.length < n →
      fieldsFrom field n acc (byte '"' :: (behindQuote f.1 ++
        byte ':' :: (bytes (compactChars f.2) ++ (bytes (compactFields fs) ++ rest)))) =
      .ok ((f :: fs).foldl step acc, rest) := by
  induction fs with
  | nil =>
    intro f acc n hputs hn
    obtain ⟨n, rfl⟩ := Nat.exists_eq_add_one_of_ne_zero (Nat.ne_of_gt hn)
    exact fieldsFrom_brace (hputs f List.mem_cons_self acc _ (stopsNumber_compactFields [] rest)) n
  | cons g fs ih =>
    intro f acc n hputs hn
    obtain ⟨n, rfl⟩ := Nat.exists_eq_add_one_of_ne_zero (Nat.ne_of_gt (Nat.zero_lt_of_lt hn))
    have hf := hputs f List.mem_cons_self acc _ (stopsNumber_compactFields (g :: fs) rest)
    have ih := ih g (step acc f) n (fun e he => hputs e (List.mem_cons_of_mem f he))
      (Nat.lt_of_succ_lt_succ hn)
    rw [bytes_compactFields_cons] at hf ⊢
    simp only [List.cons_append, List.append_assoc] at hf ⊢
    rw [fieldsFrom_comma hf, ih]
    rfl

/-- Fields that are put in one by one are read together, in the order in which they are written. -/
theorem fields_compact {step : σ → String × Value → σ} {fs : List (String × Value)}
    (h : ∀ f ∈ fs, Puts field step f) (init : σ) (rest : Bytes) :
    ∃ s, bytes (compactChars (.object fs)) ++ rest = byte '{' :: s ∧
      fields init field s = .ok (fs.foldl step init, rest) := by
  cases fs with
  | nil => exact ⟨byte '}' :: rest, by rw [compactChars]; rfl, rfl⟩
  | cons f fs =>
    refine ⟨byte '"' :: (behindQuote f.1 ++ byte ':' :: (bytes (compactChars f.2) ++
      (bytes (compactFields fs) ++ rest))), ?_, ?_⟩
    · exact bytes_object_cons f fs rest
    · unfold fields
      refine (if_neg (by decide)).trans ?_
      apply fieldsFrom_compact fs rest f init _ h
      have := length_lt_compactFields fs
      simp only [List.length_cons, List.length_append]
      omega

end Fields

/-! ### Values -/

/-- No item is deeper than the items together. -/
theorem depth_le_of_mem_items {v : Value} {vs : List Value} (h : v ∈ vs) :
    v.depth ≤ Value.depthItems vs := by
  induction vs with
  | nil => cases h
  | cons w vs ih =>
    rw [Value.depthItems]
    rcases List.mem_cons.1 h with rfl | h
    · exact Nat.le_max_left _ _
    · exact Nat.le_trans (ih h) (Nat.le_max_right _ _)

/-- No field is deeper than the fields together. -/
theorem depth_le_of_mem_fields {f : String × Value} {fs : List (String × Value)} (h : f ∈ fs) :
    f.2.depth ≤ Value.depthFields fs := by
  induction fs with
  | nil => cases h
  | cons g fs ih =>
    obtain ⟨k, w⟩ := g
    rw [Value.depthFields]
    rcases List.mem_cons.1 h with rfl | h
    · exact Nat.le_max_left _ _
    · exact Nat.le_trans (ih h) (Nat.le_max_right _ _)

/-- The word for nothing is read back. -/
theorem value_null (depth : Nat) (rest : Bytes) :
    value depth (bytes (scalar .null) ++ rest) = .ok (.null, rest) := by
  show value depth (byte 'n' :: ("ull".toList.map byte ++ rest)) = _
  rw [value, skipBlanks_cons rfl]
  rfl

/-- The words for truth and falsehood are read back. -/
theorem value_bool (b : Bool) (depth : Nat) (rest : Bytes) :
    value depth (bytes (scalar (.bool b)) ++ rest) = .ok (.bool b, rest) := by
  cases b with
  | true =>
    show value depth (byte 't' :: ("rue".toList.map byte ++ rest)) = _
    rw [value, skipBlanks_cons rfl]
    rfl
  | false =>
    show value depth (byte 'f' :: ("alse".toList.map byte ++ rest)) = _
    rw [value, skipBlanks_cons rfl]
    rfl

/-- A quote begins a text. -/
theorem value_quote (depth : Nat) (s : Bytes) :
    value depth (byte '"' :: s) = textBehindQuote s >>= fun r => .ok (.text r.1, r.2) := by
  rw [value, skipBlanks_cons rfl]
  rfl

/-- A text is read back. -/
theorem value_text (s : String) (depth : Nat) (rest : Bytes) :
    value depth (bytes (scalar (.text s)) ++ rest) = .ok (.text s, rest) := by
  rw [scalar, bytes_quoted, List.cons_append, value_quote, textBehindQuote_behindQuote]
  rfl

/-- A bracket begins an array, whose items may be one level less deep. -/
theorem value_bracket (depth : Nat) (s : Bytes) :
    value (depth + 1) (byte '[' :: s) =
      items (value depth) s >>= fun r => .ok (.array r.1, r.2) := by
  rw [value, skipBlanks_cons rfl]
  rfl

/-- What is made of the fields of an object. -/
def valueField (depth : Nat) : List (String × Value) → String → Parser (List (String × Value)) :=
  fun fs name s => do
    let (v, rest) ← value depth (← colon s)
    return (SortedMap.insertEntry name v fs, rest)

/-- A brace begins an object, whose fields may be one level less deep. -/
theorem value_brace (depth : Nat) (s : Bytes) :
    value (depth + 1) (byte '{' :: s) =
      fields [] (valueField depth) s >>= fun r => .ok (.object r.1, r.2) := by
  rw [value, skipBlanks_cons rfl]
  rfl

/-- A value that is read back is put in under the name of its field. -/
theorem puts_valueField {depth : Nat} {f : String × Value} (h : ReadsBack depth f.2) :
    Puts (valueField depth) (fun fs e => SortedMap.insertEntry e.1 e.2 fs) f := by
  intro acc rest hrest
  simp only [valueField, colon_cons, bind, Except.bind, h rest hrest]
  rfl

/-- A faithful value that is not nested too deep is read back. -/
theorem readsBack_of_faithful {v : Value} (h : Faithful v) :
    ∀ depth, v.depth ≤ depth → ReadsBack depth v := by
  -- By induction on how the value is built, with the depth that is left at each level.
  induction h with
  | null => exact fun depth _ rest _ => value_null depth rest
  | bool b => exact fun depth _ rest _ => value_bool b depth rest
  | int low high => exact fun depth _ rest hrest => value_int low high depth hrest
  | float back => exact fun depth _ rest hrest => value_append_of_float back depth hrest
  | text s => exact fun depth _ rest _ => value_text s depth rest
  | @array vs _ ih =>
    intro depth hdepth rest hrest
    rw [Value.depth] at hdepth
    obtain ⟨depth, rfl⟩ := Nat.exists_eq_add_one_of_ne_zero (by omega : depth ≠ 0)
    have hback : ∀ v ∈ vs, ReadsBack depth v := fun v hv =>
      ih v hv depth (Nat.le_trans (depth_le_of_mem_items hv) (Nat.le_of_succ_le_succ hdepth))
    obtain ⟨s, hs, hitems⟩ := items_compact hback rest
    rw [hs, value_bracket, hitems]
    rfl
  | @object fs sorted _ ih =>
    intro depth hdepth rest hrest
    rw [Value.depth] at hdepth
    obtain ⟨depth, rfl⟩ := Nat.exists_eq_add_one_of_ne_zero (by omega : depth ≠ 0)
    have hputs : ∀ f ∈ fs, Puts (valueField depth) _ f := fun f hf => puts_valueField <|
      ih f hf depth (Nat.le_trans (depth_le_of_mem_fields hf) (Nat.le_of_succ_le_succ hdepth))
    obtain ⟨s, hs, hfields⟩ := fields_compact hputs [] rest
    rw [hs, value_brace, hfields, SortedMap.foldl_insertEntry (List.nil_append fs ▸ sorted)]
    rfl

end Gatehouse.Json
