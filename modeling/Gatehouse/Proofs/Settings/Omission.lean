import Gatehouse.Settings.Decode

/-!
# What a settings file gives and leaves out

A settings file may leave out whole sections and single keys of a section. Each key that it leaves
out has its default, and each key that it gives has the value that it gives, whatever else the file
says, and however its sections are written down: as tables, or as arrays with the values in the
order of their declaration. Of a key that is given more than once the last value counts.

## Key results

- `Shape.decode_induction`: what every field that is given keeps
- `Shape.decode_of_left_out`: a field that is not given has its default
- `Shape.decode_of_given`: a field that is given has the last value that it is given
- `read_of_left_out`, `read_of_given`: the keys of the settings file
- `burst_of_left_out`: the one key of a quota that may be left out
-/

namespace Gatehouse

namespace Decode

/-- The values that stand for one of the names of a record: those of the fields with this name in an
    object, and the item at its place in an array. -/
def valuesAt (names : List String) (name : String) : Value → List Value
  | .object fs => (fs.filter fun f => f.1 = name).map Prod.snd
  | .array items => ((names.zip items).filter fun f => f.1 = name).map Prod.snd
  | _ => []

variable {ρ α β : Type} {s : Shape ρ} {surplus : Surplus} {v w : Value} {r r' : ρ} {name : String}

/-- The names of the fields of a record. -/
def Shape.names (s : Shape ρ) : List String := s.fields.map (·.name)

/-! ### What is put where -/

/-- The fields that a value gives to a record, in order: those of an object that the record knows,
    and the items of an array at their places. -/
def Shape.puts (s : Shape ρ) : Value → List (Field ρ × Value)
  | .object fs => fs.filterMap fun e => (s.fields.find? (·.name == e.1)).map (·, e.2)
  | .array items => s.fields.zip items
  | _ => []

/-- Puts values into their fields, one after the other. -/
def putAll (puts : List (Field ρ × Value)) (r : ρ) : Except Mismatch ρ :=
  puts.foldlM (fun r p => p.1.put r p.2) r

variable {puts back : List (Field ρ × Value)}

/-- Putting values behind one another is putting the first, and then the others. -/
theorem putAll_cons_eq_ok_iff {p : Field ρ × Value} :
    putAll (p :: puts) r = .ok r' ↔ ∃ r'', p.1.put r p.2 = .ok r'' ∧ putAll puts r'' = .ok r' := by
  unfold putAll
  rw [List.foldlM_cons]
  cases p.1.put r p.2 with
  | error e => simp [bind, Except.bind]
  | ok r'' => simp [bind, Except.bind]

/-- Where values are put in front of others, the record that comes of the front is the one that the
    others go into. -/
theorem putAll_append_eq_ok_iff :
    putAll (puts ++ back) r = .ok r' ↔
      ∃ r'', putAll puts r = .ok r'' ∧ putAll back r'' = .ok r' := by
  induction puts generalizing r with
  | nil => simp [putAll, pure, Except.pure]
  | cons p puts ih =>
    simp only [List.cons_append, putAll_cons_eq_ok_iff, ih]
    constructor
    · rintro ⟨r₁, hput, r₂, hputs, hback⟩
      exact ⟨r₂, ⟨r₁, hput, hputs⟩, hback⟩
    · rintro ⟨r₂, ⟨r₁, hput, hputs⟩, hback⟩
      exact ⟨r₁, hput, r₂, hputs, hback⟩

/-- What holds of a record, and is kept by every put, holds in the end. -/
theorem putAll_induction {P : ρ → Prop} (hr : P r)
    (hput : ∀ p ∈ puts, ∀ r r', P r → p.1.put r p.2 = .ok r' → P r')
    (h : putAll puts r = .ok r') : P r' := by
  induction puts generalizing r with
  | nil =>
    cases h
    exact hr
  | cons p puts ih =>
    rw [List.forall_mem_cons] at hput
    obtain ⟨r'', hstep, hrest⟩ := putAll_cons_eq_ok_iff.1 h
    exact ih (hput.1 r r'' hr hstep) hput.2 hrest

/-- The fields of an object are put one after the other. -/
theorem Shape.putFields_eq (fs : List (String × Value)) :
    s.putFields r fs = putAll (s.puts (.object fs)) r := by
  unfold putFields putAll puts
  rw [List.foldlM_filterMap]
  congr 1
  funext r e
  obtain ⟨name, w⟩ := e
  cases hf : s.fields.find? (·.name == name) <;> simp [hf, pure, Except.pure]

/-- The items of an array are put one after the other. -/
theorem putItems_eq (fs : List (Field ρ)) (items : List Value) :
    putItems r fs items = putAll (fs.zip items) r := by
  induction fs generalizing r items with
  | nil => rfl
  | cons f fs ih =>
    cases items with
    | nil => rfl
    | cons w items =>
      unfold putItems putAll
      rw [List.zip_cons_cons, List.foldlM_cons]
      congr 1
      funext r
      exact ih items

/-- A record that is decoded comes of putting all that the value gives into the first one. -/
theorem Shape.putAll_of_decode (h : s.decode surplus v = .ok r) :
    putAll (s.puts v) s.init = .ok r := by
  cases v with
  | object fs => exact (putFields_eq fs).symm.trans h
  | array items =>
    simp only [decode] at h
    rw [puts, ← putItems_eq]
    cases hitems : putItems s.init s.fields items with
    | error e =>
      rw [hitems] at h
      cases h
    | ok r' =>
      -- What is left is to count the items.
      rw [hitems] at h
      change (if _ then _ else _) = _ at h
      split at h
      · cases h
      · split at h <;> cases h
        rfl
  | null | bool | int | float | text => cases h

/-- Only fields of the record are put. -/
theorem Shape.mem_fields_of_mem_puts {p : Field ρ × Value} (h : p ∈ s.puts v) : p.1 ∈ s.fields := by
  cases v with
  | object fs =>
    obtain ⟨e, -, he⟩ := List.mem_filterMap.1 h
    obtain ⟨f, hf, rfl⟩ := Option.map_eq_some_iff.1 he
    exact List.mem_of_find?_eq_some hf
  | array items => exact (List.of_mem_zip h).1
  | null | bool | int | float | text => cases h

/-- The values that stand for a name of the record are those that are put into its field. -/
theorem Shape.valuesAt_eq (hname : name ∈ s.names) (v : Value) :
    valuesAt s.names name v = ((s.puts v).filter fun p => p.1.name = name).map Prod.snd := by
  cases v with
  | object fs =>
    simp only [valuesAt, puts]
    induction fs with
    | nil => rfl
    | cons e fs ih =>
      obtain ⟨name', w⟩ := e
      -- A name without a field is put nowhere, and it is not the name that is looked for.
      cases hf : s.fields.find? (·.name == name') with
      | none =>
        have hne : name' ≠ name := by
          rintro rfl
          obtain ⟨f, hmem, hfname⟩ := List.mem_map.1 hname
          simpa [hfname] using List.find?_eq_none.1 hf f hmem
        rw [List.filter_cons_of_neg (by simpa using hne),
          List.filterMap_cons_none (by simp [hf]), ih]
      | some f =>
        obtain rfl : f.name = name' := by simpa using List.find?_some hf
        simp only [List.filterMap_cons, hf, Option.map_some, List.filter_cons]
        by_cases h : f.name = name
        · simp [h, ih]
        · simp [h, ih]
  | array items =>
    simp only [valuesAt, puts, names]
    rw [List.zip_map_left, List.filter_map, List.map_map]
    rfl
  | null | bool | int | float | text => rfl

/-- What holds before any field is given, and is kept by every field that is given, holds of the
    record. -/
theorem Shape.decode_induction {P : ρ → Prop} (hinit : P s.init)
    (hput : ∀ f ∈ s.fields, ∀ w ∈ valuesAt s.names f.name v,
      ∀ r r', P r → f.put r w = .ok r' → P r')
    (h : s.decode surplus v = .ok r) : P r := by
  refine putAll_induction hinit (fun p hp => ?_) (putAll_of_decode h)
  have hfield := mem_fields_of_mem_puts hp
  refine hput p.1 hfield p.2 ?_
  rw [valuesAt_eq (List.mem_map_of_mem hfield)]
  exact List.mem_map_of_mem (List.mem_filter.2 ⟨hp, by simp⟩)

/-! ### Fields that are given and fields that are left out -/

/-- A field has the name that it was given. -/
@[simp] theorem Field.name_of (name : String) (decoder : Decoder β) (change : ρ → β → ρ) :
    (Field.of name decoder change).name = name := rfl

/-- A field puts what its decoder makes of a value, if it makes anything of it. -/
theorem Field.put_of_eq_ok_iff {decoder : Decoder β} {change : ρ → β → ρ} :
    (Field.of name decoder change).put r w = .ok r' ↔ ∃ b, decoder w = .ok b ∧ change r b = r' := by
  unfold Field.of
  cases h : decoder w <;> simp [Except.map, h]

/-- Whether a field leaves what is read from a record as it is. -/
def Field.Keeps (f : Field ρ) (read : ρ → α) : Prop :=
  ∀ r w r', f.put r w = .ok r' → read r' = read r

/-- Whether a field sets what is read from a record to what a decoder makes of the value. -/
def Field.Sets (f : Field ρ) (decoder : Decoder α) (read : ρ → α) : Prop :=
  ∀ r w r', f.put r w = .ok r' → decoder w = .ok (read r')

/-- A field keeps what its change does not touch. -/
theorem Field.keeps_of {decoder : Decoder β} {change : ρ → β → ρ} {read : ρ → α}
    (h : ∀ r b, read (change r b) = read r) : (Field.of name decoder change).Keeps read := by
  intro r w r' hput
  obtain ⟨b, -, rfl⟩ := put_of_eq_ok_iff.1 hput
  exact h r b

/-- A field sets what its change writes. -/
theorem Field.sets_of {decoder : Decoder α} {change : ρ → α → ρ} {read : ρ → α}
    (h : ∀ r a, read (change r a) = a) : (Field.of name decoder change).Sets decoder read := by
  intro r w r' hput
  obtain ⟨a, hdecoder, rfl⟩ := put_of_eq_ok_iff.1 hput
  rw [hdecoder, h]

/-- What no other field changes is as in the beginning if its field is not given. -/
theorem Shape.decode_of_left_out {read : ρ → α}
    (hkeeps : ∀ f ∈ s.fields, f.name = name ∨ f.Keeps read) (hout : valuesAt s.names name v = [])
    (h : s.decode surplus v = .ok r) : read r = read s.init := by
  refine decode_induction (P := fun r => read r = read s.init) rfl ?_ h
  intro f hf w hw r r' hr hput
  rcases hkeeps f hf with rfl | hkeeps
  · rw [hout] at hw
    cases hw
  · exact (hkeeps r w r' hput).trans hr

/-- Behind the last value that stands for a name, nothing is put into its field. -/
theorem Shape.exists_last_put (hname : name ∈ s.names)
    (hlast : (valuesAt s.names name v).getLast? = some w) :
    ∃ front f back, s.puts v = front ++ (f, w) :: back ∧ f.name = name ∧
      ∀ p ∈ back, p.1.name ≠ name := by
  rw [valuesAt_eq hname, List.getLast?_map, Option.map_eq_some_iff] at hlast
  obtain ⟨⟨f, w⟩, hlast, rfl⟩ := hlast
  rw [List.getLast?_eq_head?_reverse, ← List.filter_reverse, List.head?_filter,
    List.find?_eq_some_iff_append] at hlast
  obtain ⟨hfname, back, front, hsplit, hback⟩ := hlast
  refine ⟨front.reverse, f, back.reverse, ?_, by simpa using hfname, fun p hp => ?_⟩
  · rw [← List.reverse_inj, hsplit]
    simp
  · simpa using hback p (List.mem_reverse.1 hp)

/-- What one field sets and no other changes is what the last value for it is decoded to. -/
theorem Shape.decode_of_given {decoder : Decoder α} {read : ρ → α} (hname : name ∈ s.names)
    (hsets : ∀ f ∈ s.fields, f.name = name → f.Sets decoder read)
    (hkeeps : ∀ f ∈ s.fields, f.name = name ∨ f.Keeps read)
    (hlast : (valuesAt s.names name v).getLast? = some w) (h : s.decode surplus v = .ok r) :
    decoder w = .ok (read r) := by
  obtain ⟨front, f, back, hputs, hfname, hback⟩ := exists_last_put hname hlast
  have hfields : ∀ p ∈ front ++ (f, w) :: back, p.1 ∈ s.fields := fun p hp =>
    mem_fields_of_mem_puts (hputs ▸ hp)
  have hrun := putAll_of_decode h
  rw [hputs, putAll_append_eq_ok_iff] at hrun
  obtain ⟨r₁, -, hrun⟩ := hrun
  obtain ⟨r₂, hput, hrest⟩ := putAll_cons_eq_ok_iff.1 hrun
  have hset : decoder w = .ok (read r₂) := hsets f (hfields (f, w) (by simp)) hfname r₁ w r₂ hput
  -- Nothing behind it touches what it set.
  have hkept : read r = read r₂ := by
    refine putAll_induction (P := fun r => read r = read r₂) rfl (fun p hp r r' hr hput => ?_) hrest
    rcases hkeeps p.1 (hfields _ (by simp [hp])) with hsame | hkeeps
    · exact absurd hsame (hback p hp)
    · exact (hkeeps r p.2 r' hput).trans hr
  rw [hset, hkept]

end Decode

namespace Settings

open Decode (Shape Surplus valuesAt)

/-! ### The keys of the settings file -/

/-- A key of a section, with what it sets and how its values are decoded. -/
structure Key (σ : Type) where
  name : String
  {α : Type}
  read : σ → α
  decoder : Surplus → Decode.Decoder α

/-- A key with a text. -/
def Key.text (name : String) (read : σ → String) : Key σ := ⟨name, read, fun _ => Decode.text⟩

/-- A key that is on or off. -/
def Key.bool (name : String) (read : σ → Bool) : Key σ := ⟨name, read, fun _ => Decode.bool⟩

/-- A key with a number that fits some bits. -/
def Key.unsigned (bits : Nat) (name : String) (read : σ → Nat) : Key σ :=
  ⟨name, read, fun _ => Decode.unsigned bits⟩

/-- A section of the settings file, with the part of the settings that it sets and with its keys in
    the order of their declaration. -/
structure Section where
  name : String
  {σ : Type}
  part : Settings → σ
  keys : List (Key σ)

/-- The section about the server. -/
def serverSection : Section :=
  ⟨"server", (·.server), [.unsigned 16 "port" (·.port), .text "tlsCert" (·.tlsCert),
    .text "tlsKey" (·.tlsKey), .bool "requireTLS" (·.requireTls),
    .text "assetsPath" (·.assetsPath), .text "notifyEmail" (·.notifyEmail),
    .text "hostName" (·.hostName)]⟩

/-- The section about the storage. -/
def storageSection : Section := ⟨"storage", (·.storage), [.text "path" (·.path)]⟩

/-- The section about mail. -/
def mailSection : Section :=
  ⟨"email", (·.mail), [.text "server" (·.server), .text "port" (·.port), .text "user" (·.user),
    .text "password" (·.password)]⟩

/-- The section about admission. -/
def admissionSection : Section :=
  ⟨"admission", (·.admission), [.bool "enabled" (·.enabled),
    ⟨"quotas", (·.quotas), fun surplus => Decode.list (quota surplus)⟩,
    .unsigned 64 "idleEvictSecs" (·.idleEvictSecs),
    .unsigned 64 "sweepIntervalSecs" (·.sweepIntervalSecs)]⟩

/-- The section about what can be observed. -/
def observabilitySection : Section :=
  ⟨"observability", (·.observability), [.text "logLevel" (·.logLevel),
    .bool "metricsEnabled" (·.metricsEnabled), .text "metricsAddress" (·.metricsAddress)]⟩

/-- The sections of the settings file, in the order of their declaration. -/
def sections : List Section :=
  [serverSection, storageSection, mailSection, admissionSection, observabilitySection]

/-- The values that a document gives to a key of a section. -/
def Section.valuesOf (e : Section) (key : String) (document : Value) : List Value :=
  (valuesAt (sections.map (·.name)) e.name document).flatMap (valuesAt (e.keys.map (·.name)) key)

/-- The value of a key in a document: the last one in the last table of its section. -/
def Section.value? (e : Section) (key : String) (document : Value) : Option Value :=
  (valuesAt (sections.map (·.name)) e.name document).getLast?.bind fun w =>
    (valuesAt (e.keys.map (·.name)) key w).getLast?

variable {surplus : Surplus} {v w : Value} {s : Settings} {e : Section}

/-- Whether a section is decoded by a shape: one field of the settings sets its part to what the
    shape decodes, and in it every key has one field of its own. -/
structure Section.DecodedBy (e : Section) (surplus : Surplus) (parts : Shape e.σ) : Prop where
  init : e.part {} = parts.init
  named : e.name ∈ (shape surplus).names
  sets : ∀ f ∈ (shape surplus).fields, f.name = e.name → f.Sets (parts.decode surplus) e.part
  keeps : ∀ f ∈ (shape surplus).fields, f.name = e.name ∨ f.Keeps e.part
  names : e.keys.map (·.name) = parts.names
  setsKey : ∀ k ∈ e.keys, ∀ f ∈ parts.fields, f.name = k.name → f.Sets (k.decoder surplus) k.read
  keepsKeys : ∀ k ∈ e.keys, ∀ f ∈ parts.fields, f.name = k.name ∨ f.Keeps k.read

/-- A key that the document leaves out has its default. -/
theorem Section.DecodedBy.read_of_left_out {parts : Shape e.σ} (he : e.DecodedBy surplus parts)
    (h : ofValue surplus v = .ok s) {k : Key e.σ} (hk : k ∈ e.keys)
    (hout : e.valuesOf k.name v = []) : k.read (e.part s) = k.read (e.part {}) := by
  cases hlast : (valuesAt (shape surplus).names e.name v).getLast? with
  | none =>
    rw [Shape.decode_of_left_out he.keeps (List.getLast?_eq_none_iff.1 hlast) h]
    rfl
  | some w =>
    have hpart := Shape.decode_of_given he.named he.sets he.keeps hlast h
    have hleft : valuesAt parts.names k.name w = [] := by
      rw [← he.names]
      exact List.flatMap_eq_nil_iff.1 hout w (List.mem_of_getLast? hlast)
    rw [he.init]
    exact Shape.decode_of_left_out (he.keepsKeys k hk) hleft hpart

/-- A key that the document gives has the value that it gives. -/
theorem Section.DecodedBy.read_of_given {parts : Shape e.σ} (he : e.DecodedBy surplus parts)
    (h : ofValue surplus v = .ok s) {k : Key e.σ} (hk : k ∈ e.keys)
    (hvalue : e.value? k.name v = some w) : k.decoder surplus w = .ok (k.read (e.part s)) := by
  obtain ⟨w', hlast, hkey⟩ := Option.bind_eq_some_iff.1 hvalue
  rw [he.names] at hkey
  have hname : k.name ∈ parts.names := by
    rw [← he.names]
    exact List.mem_map_of_mem hk
  have hpart : parts.decode surplus w' = .ok (e.part s) :=
    Shape.decode_of_given he.named he.sets he.keeps hlast h
  exact Shape.decode_of_given hname (he.setsKey k hk) (he.keepsKeys k hk) hkey hpart

/-- What each field of the settings puts, and where. -/
theorem put_cases {f : Decode.Field Settings} (hf : f ∈ (shape surplus).fields) {s s' : Settings}
    {w : Value} (h : f.put s w = .ok s') :
    (f.name = "server" ∧ ∃ b, serverShape.decode surplus w = .ok b ∧ s' = { s with server := b }) ∨
    (f.name = "storage" ∧ ∃ b, storageShape.decode surplus w = .ok b ∧
      s' = { s with storage := b }) ∨
    (f.name = "email" ∧ ∃ b, mailShape.decode surplus w = .ok b ∧ s' = { s with mail := b }) ∨
    (f.name = "admission" ∧ ∃ b, (admissionShape surplus).decode surplus w = .ok b ∧
      s' = { s with admission := b }) ∨
    (f.name = "observability" ∧ ∃ b, observabilityShape.decode surplus w = .ok b ∧
      s' = { s with observability := b }) := by
  simp only [shape, List.mem_cons, List.not_mem_nil, or_false] at hf
  rcases hf with rfl | rfl | rfl | rfl | rfl
  all_goals obtain ⟨b, hdecode, rfl⟩ := Decode.Field.put_of_eq_ok_iff.1 h
  · exact .inl ⟨rfl, b, hdecode, rfl⟩
  · exact .inr (.inl ⟨rfl, b, hdecode, rfl⟩)
  · exact .inr (.inr (.inl ⟨rfl, b, hdecode, rfl⟩))
  · exact .inr (.inr (.inr (.inl ⟨rfl, b, hdecode, rfl⟩)))
  · exact .inr (.inr (.inr (.inr ⟨rfl, b, hdecode, rfl⟩)))

/-- Every section is decoded by the shape of its part. -/
theorem exists_decodedBy (surplus : Surplus) :
    ∀ e ∈ sections, ∃ parts, e.DecodedBy surplus parts := by
  unfold sections serverSection storageSection mailSection admissionSection observabilitySection
  simp only [List.forall_mem_cons]
  refine ⟨⟨serverShape, ?_⟩, ⟨storageShape, ?_⟩, ⟨mailShape, ?_⟩, ⟨admissionShape surplus, ?_⟩,
    ⟨observabilityShape, ?_⟩, nofun⟩
  all_goals
    refine { init := rfl, named := ?named, sets := ?sets, keeps := ?keeps, names := rfl,
             setsKey := ?setsKey, keepsKeys := ?keepsKeys }
    case named =>
      show _ ∈ sections.map Section.name
      decide
    -- The part of a section is set by one field, and what a key reads is set by another.
    case sets | setsKey =>
      simp only [shape, serverShape, storageShape, mailShape, admissionShape, observabilityShape,
        Key.text, Key.bool, Key.unsigned, List.forall_mem_cons, Decode.Field.name_of]
      and_intros
      all_goals first
        | exact fun h => absurd h (by decide)
        | exact fun _ => Decode.Field.sets_of fun _ _ => rfl
        | exact nofun
    case keeps | keepsKeys =>
      simp only [shape, serverShape, storageShape, mailShape, admissionShape, observabilityShape,
        List.forall_mem_cons]
      and_intros
      all_goals first
        | exact .inl rfl
        | exact .inr (Decode.Field.keeps_of fun _ _ => rfl)
        | exact nofun

/-- Every key that a settings file leaves out has its default. -/
theorem read_of_left_out (h : ofValue surplus v = .ok s) :
    ∀ e ∈ sections, ∀ k ∈ e.keys, e.valuesOf k.name v = [] →
      k.read (e.part s) = k.read (e.part {}) := by
  intro e he k hk hout
  obtain ⟨parts, hparts⟩ := exists_decodedBy surplus e he
  exact hparts.read_of_left_out h hk hout

/-- Every key that a settings file gives has the value that it gives there. -/
theorem read_of_given (h : ofValue surplus v = .ok s) :
    ∀ e ∈ sections, ∀ k ∈ e.keys, ∀ w, e.value? k.name v = some w →
      k.decoder surplus w = .ok (k.read (e.part s)) := by
  intro e he k hk w hvalue
  obtain ⟨parts, hparts⟩ := exists_decodedBy surplus e he
  exact hparts.read_of_given h hk hvalue

/-! ### Quotas -/

/-- The keys of a quota, in the order of their declaration. -/
def quotaKeys : List String := ["method", "pathPrefix", "perMinute", "burst"]

/-- Each of the results comes of one of the values. -/
private theorem exists_of_mapM {α β ε : Type} {f : α → Except ε β} {as : List α} {bs : List β}
    (h : as.mapM f = .ok bs) : ∀ b ∈ bs, ∃ a ∈ as, f a = .ok b := by
  induction as generalizing bs with
  | nil =>
    cases h
    exact nofun
  | cons a as ih =>
    rw [List.mapM_cons] at h
    cases hb : f a with
    | error e =>
      rw [hb] at h
      cases h
    | ok b =>
      rw [hb] at h
      cases hbs : as.mapM f with
      | error e =>
        simp only [hbs] at h
        cases h
      | ok bs' =>
        simp only [hbs] at h
        cases h
        intro b' hb'
        rcases List.mem_cons.1 hb' with rfl | hb'
        · exact ⟨a, by simp, hb⟩
        · obtain ⟨a', ha', hf⟩ := ih hbs b' hb'
          exact ⟨a', List.mem_cons_of_mem _ ha', hf⟩

/-- A quota has the burst of its draft. -/
theorem burst_of_finish {draft : QuotaDraft} {q : Quota} (h : draft.finish = .ok q) :
    q.burst = draft.burst := by
  obtain ⟨method, pathPrefix, perMinute, burst⟩ := draft
  match method, pathPrefix, perMinute with
  | none, _, _ | some _, none, _ | some _, some _, none => cases h
  | some _, some _, some _ =>
    cases h
    rfl

/-- A quota that leaves its burst out has the default. -/
theorem burst_of_quota {w : Value} {q : Quota} (h : quota surplus w = .ok q)
    (hout : valuesAt quotaKeys "burst" w = []) : q.burst = 0 := by
  unfold quota at h
  cases hdraft : quotaShape.decode surplus w with
  | error e =>
    rw [hdraft] at h
    cases h
  | ok draft =>
    rw [hdraft] at h
    have hkeeps : ∀ f ∈ quotaShape.fields, f.name = "burst" ∨ f.Keeps QuotaDraft.burst := by
      simp only [quotaShape, List.forall_mem_cons]
      and_intros
      all_goals first
        | exact .inl rfl
        | exact .inr (Decode.Field.keeps_of fun _ _ => rfl)
        | exact nofun
    have hburst : draft.burst = 0 := Shape.decode_of_left_out hkeeps hout hdraft
    exact (burst_of_finish h).trans hburst

/-- Whether a quota comes from an item of a list that a document gives to `quotas`. -/
def Listed (surplus : Surplus) (v : Value) (q : Quota) : Prop :=
  ∃ items, .array items ∈ admissionSection.valuesOf "quotas" v ∧
    ∃ w ∈ items, quota surplus w = .ok q

/-- Every quota comes from a list in the document. -/
theorem listed_of_mem_quotas (h : ofValue surplus v = .ok s) :
    ∀ q ∈ s.admission.quotas, Listed surplus v q := by
  have hinit : ∀ q ∈ ({} : Admission).quotas, Listed surplus v q := fun q hq => by cases hq
  refine Shape.decode_induction (P := fun s => ∀ q ∈ s.admission.quotas, Listed surplus v q)
    hinit ?_ h
  intro f hf w hw s s' hs hput
  rcases put_cases hf hput with ⟨-, b, -, rfl⟩ | ⟨-, b, -, rfl⟩ | ⟨-, b, -, rfl⟩ |
    ⟨hname, b, hdecode, rfl⟩ | ⟨-, b, -, rfl⟩
  case inr.inr.inr.inl =>
    refine Shape.decode_induction (P := fun b => ∀ q ∈ b.quotas, Listed surplus v q) hinit ?_
      hdecode
    intro f' hf' w' hw' b b' hb hput'
    simp only [admissionShape, List.mem_cons, List.not_mem_nil, or_false] at hf'
    rcases hf' with rfl | rfl | rfl | rfl
    all_goals obtain ⟨qs, hqs, rfl⟩ := Decode.Field.put_of_eq_ok_iff.1 hput'
    case inr.inl =>
      -- The quotas are those of one list.
      intro q hq
      cases w' with
      | array items =>
        obtain ⟨w, hitem, hquota⟩ := exists_of_mapM hqs q hq
        refine ⟨items, List.mem_flatMap.2 ⟨_, ?_, hw'⟩, w, hitem, hquota⟩
        rw [hname] at hw
        exact hw
      | null | bool | int | float | text | object => cases hqs
    all_goals exact hb
  all_goals exact hs

/-- The burst of every quota that leaves it out is the default. -/
theorem burst_of_left_out (h : ofValue surplus v = .ok s) :
    ∀ q ∈ s.admission.quotas, ∃ items, .array items ∈ admissionSection.valuesOf "quotas" v ∧
      ∃ w ∈ items, quota surplus w = .ok q ∧ (valuesAt quotaKeys "burst" w = [] → q.burst = 0) := by
  intro q hq
  obtain ⟨items, hitems, w, hw, hquota⟩ := listed_of_mem_quotas h q hq
  exact ⟨items, hitems, w, hw, hquota, burst_of_quota hquota⟩

end Settings

end Gatehouse
