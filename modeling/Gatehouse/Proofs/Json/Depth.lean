import Gatehouse.Proofs.Json.RoundTrip

/-!
# How deep values are nested

A reader goes no deeper than it is told to. So what it reads, which is well-formed, is nested no
deeper, and of what is written but nested deeper it reads the parts up to the first that is, and
refuses that one. Writing knows of no such bound.

## Key results

- `value_cases`: a scalar is read, or the parts of an array or an object with one level less
- `wellformed_of_value`: what is read is well-formed and nested no deeper than is read
- `refused_of_faithful`: a faithful value that is nested deeper is refused
-/

namespace Gatehouse.Json

open Text (bytes)

/-! ### What is read -/

section Read

variable {α σ : Type}

/-- What holds of every item that is read holds of all of them. -/
theorem forall_of_itemsFrom {item : Parser α} {P : α → Prop}
    (hitem : ∀ {s a t}, item s = .ok (a, t) → P a) {n : Nat} {s t : Bytes} {as : List α}
    (h : itemsFrom item n s = .ok (as, t)) : ∀ a ∈ as, P a := by
  induction n generalizing s as with
  | zero => cases h
  | succ n ih =>
    obtain ⟨_, a, s', b, s'', hn, hfirst, -, hbehind⟩ := itemsFrom_cases h
    cases hn
    rcases hbehind with ⟨-, as', hrest, rfl⟩ | ⟨-, rfl, -⟩
    · exact List.forall_mem_cons.2 ⟨hitem hfirst, ih hrest⟩
    · exact List.forall_mem_singleton.2 (hitem hfirst)

/-- What every item is read with holds of all of them. -/
theorem forall_of_items {item : Parser α} {P : α → Prop}
    (hitem : ∀ {s a t}, item s = .ok (a, t) → P a) {s t : Bytes} {as : List α}
    (h : items item s = .ok (as, t)) : ∀ a ∈ as, P a := by
  rw [items] at h
  split at h
  · cases h
  · split at h
    · cases h
      exact List.forall_mem_nil _
    · exact forall_of_itemsFrom hitem h

/-- What every field keeps is kept by all of them. -/
theorem invariant_of_fieldsFrom {field : σ → String → Parser σ} {P : σ → Prop}
    (hfield : ∀ {acc name s acc' t}, P acc → field acc name s = .ok (acc', t) → P acc') {n : Nat}
    {acc r : σ} {s t : Bytes} (hacc : P acc) (h : fieldsFrom field n acc s = .ok (r, t)) :
    P r := by
  induction n generalizing acc s with
  | zero => cases h
  | succ n ih =>
    obtain ⟨_, _, name, _, acc', _, b, _, hn, -, -, hfirst, -, hbehind⟩ := fieldsFrom_cases h
    cases hn
    rcases hbehind with ⟨-, hrest⟩ | ⟨-, rfl, -⟩
    · exact ih (hfield hacc hfirst) hrest
    · exact hfield hacc hfirst

/-- What every field keeps holds when all have been read. -/
theorem invariant_of_fields {field : σ → String → Parser σ} {P : σ → Prop}
    (hfield : ∀ {acc name s acc' t}, P acc → field acc name s = .ok (acc', t) → P acc')
    {acc acc' : σ} {s t : Bytes} (hacc : P acc) (h : fields acc field s = .ok (acc', t)) :
    P acc' := by
  rw [fields] at h
  split at h
  · cases h
  · split at h
    · cases h
      exact hacc
    · exact invariant_of_fieldsFrom hfield hacc h

end Read

/-- Items are together no deeper than the deepest of them. -/
theorem depthItems_le {vs : List Value} {d : Nat} (h : ∀ v ∈ vs, v.depth ≤ d) :
    Value.depthItems vs ≤ d := by
  induction vs with
  | nil => exact Nat.zero_le d
  | cons v vs ih =>
    rw [Value.depthItems]
    exact Nat.max_le.2 ⟨h v List.mem_cons_self, ih fun w hw => h w (List.mem_cons_of_mem v hw)⟩

/-- Fields are together no deeper than the deepest of them. -/
theorem depthFields_le {fs : List (String × Value)} {d : Nat} (h : ∀ f ∈ fs, f.2.depth ≤ d) :
    Value.depthFields fs ≤ d := by
  induction fs with
  | nil => exact Nat.zero_le d
  | cons f fs ih =>
    obtain ⟨k, v⟩ := f
    rw [Value.depthFields]
    exact Nat.max_le.2 ⟨h (k, v) List.mem_cons_self, ih fun g hg => h g (List.mem_cons_of_mem _ hg)⟩

/-- Digits are gathered only as long as 64 bits hold them. -/
theorem gather_lt {n : Nat} (hn : n < Nat.pow 2 64) (ds : List Nat) :
    (gather n ds).1 < Nat.pow 2 64 := by
  induction ds generalizing n with
  | nil => exact hn
  | cons d ds ih =>
    rw [gather]
    split
    · next h => exact ih h
    · exact hn

/-- An integer that was read fits, with its sign. -/
theorem wellformed_signedInteger {n : Nat} (hn : n < Nat.pow 2 64) (negative : Bool) :
    (signedInteger negative n).depth = 0 ∧ Wellformed (signedInteger negative n) := by
  unfold signedInteger
  split
  · exact ⟨rfl, .int (by omega) (by omega)⟩
  · split
    · exact ⟨rfl, .float _⟩
    · next h =>
      simp only [Bool.or_eq_true, decide_eq_true_eq, not_or, Nat.not_lt] at h
      exact ⟨rfl, .int (by omega) (by omega)⟩

/-- A number of any form that was read is well formed and not nested. -/
theorem wellformed_of_value? {p : NumberParts} {v : Value} (h : p.value? = some v) :
    v.depth = 0 ∧ Wellformed v := by
  simp only [NumberParts.value?] at h
  split at h
  · cases h
    exact wellformed_signedInteger (gather_lt (by decide) _) _
  · obtain ⟨x, -, rfl⟩ := Option.map_eq_some_iff.1 h
    exact ⟨rfl, .float _⟩

/-- A number behind its sign is well formed and not nested. -/
theorem wellformed_of_number {negative : Bool} {s t : Bytes} {v : Value}
    (h : numberBehindSign negative s = .ok (v, t)) : v.depth = 0 ∧ Wellformed v := by
  rw [numberBehindSign] at h
  obtain ⟨_, -, h⟩ := ok_of_bind h
  obtain ⟨_, -, h⟩ := ok_of_bind h
  obtain ⟨_, -, h⟩ := ok_of_bind h
  dsimp only at h
  split at h
  · next v' hv =>
    cases h
    exact wellformed_of_value? hv
  · cases h

/-- A value that is read is a well-formed scalar, or the parts of an array or an object were read
    with one level less. -/
theorem value_cases {depth : Nat} {s t : Bytes} {v : Value} (h : value depth s = .ok (v, t)) :
    (v.depth = 0 ∧ Wellformed v) ∨ ∃ d, depth = d + 1 ∧
      ((∃ vs s', v = .array vs ∧ items (value d) s' = .ok (vs, t)) ∨
        ∃ fs s', v = .object fs ∧ fields [] (valueField d) s' = .ok (fs, t)) := by
  rw [value] at h
  split at h
  · cases h
  · split at h
    · obtain ⟨_, -, h⟩ := ok_of_bind h
      cases h
      exact .inl ⟨rfl, .null⟩
    split at h
    · obtain ⟨_, -, h⟩ := ok_of_bind h
      cases h
      exact .inl ⟨rfl, .bool true⟩
    split at h
    · obtain ⟨_, -, h⟩ := ok_of_bind h
      cases h
      exact .inl ⟨rfl, .bool false⟩
    -- The first byte tells the kind: what follows are the three words, the numbers, texts and
    -- nesting.
    split at h
    · exact .inl (wellformed_of_number h)
    split at h
    · exact .inl (wellformed_of_number h)
    split at h
    · obtain ⟨⟨t, _⟩, -, h⟩ := ok_of_bind h
      cases h
      exact .inl ⟨rfl, .text t⟩
    split at h
    · cases h
    -- Only what nests needs depth to be left.
    · next d =>
      refine .inr ⟨d, rfl, ?_⟩
      split at h
      · obtain ⟨⟨vs, t'⟩, hitems, h⟩ := ok_of_bind h
        cases h
        exact .inl ⟨vs, _, rfl, hitems⟩
      split at h
      · obtain ⟨⟨fs, t'⟩, hfields, h⟩ := ok_of_bind h
        cases h
        exact .inr ⟨fs, _, rfl, hfields⟩
      · cases h

/-- What holds of every value that is read holds of the values of all fields that are. -/
theorem forall_of_valueFields {depth : Nat} {P : Value → Prop}
    (hvalue : ∀ {s v t}, value depth s = .ok (v, t) → P v) {s t : Bytes}
    {fs : List (String × Value)} (h : fields [] (valueField depth) s = .ok (fs, t)) :
    fs.Pairwise (·.1 < ·.1) ∧ ∀ f ∈ fs, P f.2 := by
  -- A field is put among those before it, or in the place of one of them.
  refine invariant_of_fields (P := fun fs => fs.Pairwise (·.1 < ·.1) ∧ ∀ f ∈ fs, P f.2) ?_
    ⟨.nil, nofun⟩ h
  rintro fs name s fs' t ⟨hsorted, hfs⟩ hfield
  obtain ⟨s₁, -, hfield⟩ := ok_of_bind hfield
  obtain ⟨⟨w, s₂⟩, hw, hfield⟩ := ok_of_bind hfield
  cases hfield
  refine ⟨SortedMap.sorted_insertEntry name w hsorted, fun f hf => ?_⟩
  rcases SortedMap.mem_insertEntry hf with rfl | hf
  · exact hvalue hw
  · exact hfs f hf

/-- What is read is well-formed, and nested no deeper than is read. -/
theorem wellformed_of_value {depth : Nat} {s t : Bytes} {v : Value}
    (h : value depth s = .ok (v, t)) : Wellformed v ∧ v.depth ≤ depth := by
  -- By induction on the depth that is left: what is nested was read with one level less.
  induction depth generalizing s v t with
  | zero =>
    obtain ⟨hzero, hscalar⟩ | ⟨d, hd, -⟩ := value_cases h
    · exact ⟨hscalar, Nat.le_of_eq hzero⟩
    · cases hd
  | succ depth ih =>
    obtain ⟨hzero, hscalar⟩ | ⟨d, hd, ⟨vs, s', rfl, hitems⟩ | ⟨fs, s', rfl, hfields⟩⟩ :=
      value_cases h
    · exact ⟨hscalar, hzero ▸ Nat.zero_le _⟩
    · cases hd
      have hvs := forall_of_items ih hitems
      exact ⟨.array fun v hv => (hvs v hv).1,
        Nat.succ_le_succ (depthItems_le fun v hv => (hvs v hv).2)⟩
    · cases hd
      obtain ⟨hsorted, hfs⟩ := forall_of_valueFields ih hfields
      exact ⟨.object hsorted fun f hf => (hfs f hf).1,
        Nat.succ_le_succ (depthFields_le fun f hf => (hfs f hf).2)⟩

/-! ### What is refused -/

/-- Whether the written form of a value is refused, whatever comes behind it. -/
def Refused (depth : Nat) (v : Value) : Prop :=
  ∀ rest, StopsNumber rest → value depth (bytes (compactChars v) ++ rest) = .error .malformed

/-- Whether the written form of a field is refused, whatever comes before and behind it. -/
def Refuses {σ : Type} (field : σ → String → Parser σ) (f : String × Value) : Prop :=
  ∀ acc rest, StopsNumber rest →
    field acc f.1 (byte ':' :: (bytes (compactChars f.2) ++ rest)) = .error .malformed

/-- An array cannot be read if one of its items cannot. -/
theorem itemsFrom_error {α : Type} {item : Parser α} {s : Bytes} {e : Fault}
    (h : item (skipBlanks s) = .error e) (n : Nat) : itemsFrom item (n + 1) s = .error e := by
  rw [itemsFrom, h]
  rfl

/-- An object cannot be read if one of its fields cannot. -/
theorem fieldsFrom_error {σ : Type} {field : σ → String → Parser σ} {acc : σ} {k : String}
    {s : Bytes} {e : Fault} (h : field acc k s = .error e) (n : Nat) :
    fieldsFrom field (n + 1) acc (byte '"' :: (behindQuote k ++ s)) = .error e := by
  rw [fieldsFrom, skipBlanks_cons rfl]
  simp only [ne_eq, not_true_eq_false, if_false, textBehindQuote_behindQuote, bind, Except.bind, h]

/-- If every item is read back or refused, and one is refused, all of them are. -/
theorem itemsFrom_refused {depth : Nat} (vs : List Value) (rest : Bytes) :
    ∀ (v : Value) (n : Nat), (∀ w ∈ v :: vs, ReadsBack depth w ∨ Refused depth w) →
      (∃ w ∈ v :: vs, Refused depth w) → vs.length < n →
      itemsFrom (value depth) n
        (bytes (compactChars v) ++ (bytes (compactItems vs) ++ rest)) = .error .malformed := by
  -- By induction on the items behind the first one, which are reached if it is read back.
  induction vs with
  | nil =>
    rintro v n - ⟨w, hw, hrefused⟩ hn
    obtain ⟨n, rfl⟩ := Nat.exists_eq_add_one_of_ne_zero (Nat.ne_of_gt hn)
    rw [List.mem_singleton.1 hw] at hrefused
    have hv := hrefused _ (stopsNumber_compactItems [] rest)
    rw [← value_skipBlanks] at hv
    exact itemsFrom_error hv n
  | cons u vs ih =>
    rintro v n hall ⟨w, hw, hrefused⟩ hn
    obtain ⟨n, rfl⟩ := Nat.exists_eq_add_one_of_ne_zero (Nat.ne_of_gt (Nat.zero_lt_of_lt hn))
    rcases hall v List.mem_cons_self with hback | hfirst
    · have hv := hback _ (stopsNumber_compactItems (u :: vs) rest)
      have hbehind : ∃ w ∈ u :: vs, Refused depth w := by
        rcases List.mem_cons.1 hw with rfl | hw
        · cases hv.symm.trans (hrefused _ (stopsNumber_compactItems (u :: vs) rest))
        · exact ⟨w, hw, hrefused⟩
      have ih := ih u n (fun w hw => hall w (List.mem_cons_of_mem v hw)) hbehind
        (Nat.lt_of_succ_lt_succ hn)
      rw [← value_skipBlanks] at hv
      rw [bytes_compactItems_cons, List.cons_append, List.append_assoc] at hv ⊢
      rw [itemsFrom_comma hv, ih]
      rfl
    · have hv := hfirst _ (stopsNumber_compactItems (u :: vs) rest)
      rw [← value_skipBlanks] at hv
      exact itemsFrom_error hv n

/-- If every field is read or refused, and one is refused, all of them are. -/
theorem fieldsFrom_refused {σ : Type} {field : σ → String → Parser σ}
    {step : σ → String × Value → σ} (fs : List (String × Value)) (rest : Bytes) :
    ∀ (f : String × Value) (acc : σ) (n : Nat),
      (∀ g ∈ f :: fs, Puts field step g ∨ Refuses field g) → (∃ g ∈ f :: fs, Refuses field g) →
      fs.length < n →
      fieldsFrom field n acc (byte '"' :: (behindQuote f.1 ++
        byte ':' :: (bytes (compactChars f.2) ++ (bytes (compactFields fs) ++ rest)))) =
      .error .malformed := by
  -- By induction on the fields behind the first one. The fuel is used up one by one with them.
  induction fs with
  | nil =>
    rintro f acc n - ⟨g, hg, hrefuses⟩ hn
    obtain ⟨n, rfl⟩ := Nat.exists_eq_add_one_of_ne_zero (Nat.ne_of_gt hn)
    rw [List.mem_singleton.1 hg] at hrefuses
    exact fieldsFrom_error (hrefuses acc _ (stopsNumber_compactFields [] rest)) n
  | cons e fs ih =>
    rintro f acc n hall ⟨g, hg, hrefuses⟩ hn
    obtain ⟨n, rfl⟩ := Nat.exists_eq_add_one_of_ne_zero (Nat.ne_of_gt (Nat.zero_lt_of_lt hn))
    -- Either the first field is the bad one, or it is put in and a later one is bad.
    rcases hall f List.mem_cons_self with hputs | hfirst
    · have hf := hputs acc _ (stopsNumber_compactFields (e :: fs) rest)
      have hbehind : ∃ g ∈ e :: fs, Refuses field g := by
        rcases List.mem_cons.1 hg with rfl | hg
        · cases hf.symm.trans (hrefuses acc _ (stopsNumber_compactFields (e :: fs) rest))
        · exact ⟨g, hg, hrefuses⟩
      have ih := ih e (step acc f) n (fun g hg => hall g (List.mem_cons_of_mem f hg)) hbehind
        (Nat.lt_of_succ_lt_succ hn)
      rw [bytes_compactFields_cons] at hf ⊢
      simp only [List.cons_append, List.append_assoc] at hf ⊢
      rw [fieldsFrom_comma hf, ih]
    · exact fieldsFrom_error (hfirst acc _ (stopsNumber_compactFields (e :: fs) rest)) n

/-- An object of which a field is refused is refused behind its opening brace. -/
theorem fields_refused {σ : Type} {field : σ → String → Parser σ}
    {step : σ → String × Value → σ} {fs : List (String × Value)}
    (hall : ∀ f ∈ fs, Puts field step f ∨ Refuses field f) (hbad : ∃ f ∈ fs, Refuses field f)
    (init : σ) (rest : Bytes) :
    ∃ s, bytes (compactChars (.object fs)) ++ rest = byte '{' :: s ∧
      fields init field s = .error .malformed := by
  cases fs with
  | nil =>
    obtain ⟨f, hf, -⟩ := hbad
    cases hf
  | cons f fs =>
    refine ⟨_, bytes_object_cons f fs rest, ?_⟩
    unfold fields
    refine (if_neg (by decide)).trans ?_
    apply fieldsFrom_refused fs rest f init _ hall hbad
    have := length_lt_compactFields fs
    simp only [List.length_cons, List.length_append]
    omega

/-- A value that is refused is refused as a field. -/
theorem refuses_valueField {depth : Nat} {f : String × Value} (h : Refused depth f.2) :
    Refuses (valueField depth) f := by
  intro acc rest hrest
  simp only [valueField, colon_cons, bind, Except.bind, h rest hrest]

/-- Items that are together too deep have one that is. -/
theorem exists_deep_item {vs : List Value} {d : Nat} (h : d < Value.depthItems vs) :
    ∃ v ∈ vs, d < v.depth := by
  refine Classical.byContradiction fun hnone => Nat.not_le_of_lt h (depthItems_le fun v hv => ?_)
  exact Nat.le_of_not_lt fun hlt => hnone ⟨v, hv, hlt⟩

/-- Fields that are together too deep have one that is. -/
theorem exists_deep_field {fs : List (String × Value)} {d : Nat} (h : d < Value.depthFields fs) :
    ∃ f ∈ fs, d < f.2.depth := by
  refine Classical.byContradiction fun hnone => Nat.not_le_of_lt h (depthFields_le fun f hf => ?_)
  exact Nat.le_of_not_lt fun hlt => hnone ⟨f, hf, hlt⟩

/-- No array and no object is read where none may be. -/
theorem value_zero (v : Value) (h : v.depth ≠ 0) : Refused 0 v := by
  intro rest _
  cases v with
  | array vs =>
    cases vs with
    | nil => rfl
    | cons v vs =>
      rw [bytes_array_cons]
      rfl
  | object fs =>
    cases fs with
    | nil => rfl
    | cons f fs =>
      rw [bytes_object_cons]
      rfl
  | null | bool | int | float | text => exact absurd rfl h

/-- A faithful value that is nested deeper than is read is refused. -/
theorem refused_of_faithful {v : Value} (h : Faithful v) :
    ∀ depth, depth < v.depth → Refused depth v := by
  induction h with
  | null | bool | int | float | text => exact fun depth hdepth => absurd hdepth (Nat.not_lt_zero _)
  | @array vs hvs ih =>
    rintro (- | depth) hdepth
    · exact value_zero _ (Nat.ne_of_gt hdepth)
    intro rest hrest
    have hall : ∀ v ∈ vs, ReadsBack depth v ∨ Refused depth v := fun v hv =>
      (Nat.lt_or_ge depth v.depth).symm.imp (readsBack_of_faithful (hvs v hv) depth) (ih v hv depth)
    obtain ⟨w, hw, hdeep⟩ := exists_deep_item (Nat.lt_of_succ_lt_succ hdepth)
    cases vs with
    | nil => cases hw
    | cons v vs =>
      -- The first item begins here whether it is refused or not: with enough depth it is read.
      have hv := readsBack_of_faithful (hvs v List.mem_cons_self) v.depth (Nat.le_refl _) _
        (stopsNumber_compactItems vs rest)
      obtain ⟨n, hn, heq⟩ := exists_items_eq (value depth) hv
      rw [bytes_array_cons, value_bracket, heq,
        itemsFrom_refused vs rest v n hall ⟨w, hw, ih w hw depth hdeep⟩ hn]
      rfl
  | @object fs _ hfs ih =>
    rintro (- | depth) hdepth
    · exact value_zero _ (Nat.ne_of_gt hdepth)
    intro rest hrest
    have hall : ∀ f ∈ fs, Puts (valueField depth) _ f ∨ Refuses (valueField depth) f := fun f hf =>
      (Nat.lt_or_ge depth f.2.depth).symm.imp
        (fun hle => puts_valueField (readsBack_of_faithful (hfs f hf) depth hle))
        fun hlt => refuses_valueField (ih f hf depth hlt)
    obtain ⟨f, hf, hdeep⟩ := exists_deep_field (Nat.lt_of_succ_lt_succ hdepth)
    obtain ⟨s, hs, hfields⟩ :=
      fields_refused hall ⟨f, hf, refuses_valueField (ih f hf depth hdeep)⟩ [] rest
    rw [hs, value_brace, hfields]
    rfl

/-! ### Values of any depth -/

/-- A value inside as many arrays as one likes. -/
def nested : Nat → Value
  | 0 => .null
  | n + 1 => .array [nested n]

/-- Nothing inside so many arrays is as deep. -/
theorem depth_nested (n : Nat) : (nested n).depth = n := by
  induction n with
  | zero => rfl
  | succ n ih =>
    rw [nested, Value.depth, Value.depthItems, Value.depthItems, ih, Nat.max_zero]

/-- Arrays around nothing are read back as they are written. -/
theorem faithful_nested (n : Nat) : Faithful (nested n) := by
  induction n with
  | zero => exact .null
  | succ n ih => exact .array (List.forall_mem_singleton.2 ih)

end Gatehouse.Json
