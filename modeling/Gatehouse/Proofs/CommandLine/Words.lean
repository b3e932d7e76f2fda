import Gatehouse.CommandLine.Reader

/-!
# The words of a command line

How the words look that give a value to a parameter, and how a word that was read looked. A switch
is given by its name. Any other option has its value behind an equals sign or in the next word,
which must not look like an option itself; where an option has a letter, the value may follow it at
once.

## Key results

- `Argument.looks_iff`: what each kind of argument looks like
- `Level.option?_eq_give_iff` / `Level.letterOption?_eq_give_iff`: the options of a level
- `Gives`: the words that give a value to a parameter
-/

namespace Gatehouse.CommandLine

/-! ## Arguments -/

namespace Argument

/-- Whether an argument looks like no option: it is a dash alone, or does not begin with one. -/
def Plain (s : String) : Prop := s = "-" ∨ s.toList.head? ≠ some '-'

instance : DecidablePred Plain := fun _ => inferInstanceAs (Decidable (_ ∨ _))

/-- How arguments look. -/
inductive Looks : String → Argument → Prop
  | divider : Looks "--" .divider
  | long {name : String} (hname : name ≠ "") (hequals : '=' ∉ name.toList) :
    Looks ("--" ++ name) (.long name none)
  | longWith {name : String} (hequals : '=' ∉ name.toList) (v : String) :
    Looks ("--" ++ name ++ "=" ++ v) (.long name (some v))
  | short {c : Char} (hc : c ≠ '-') (cs : List Char) :
    Looks (String.ofList ('-' :: c :: cs)) (.short c cs)
  | plain {s : String} (h : Plain s) : Looks s .plain

/-- A name ends where the equals sign stands, or where the word ends. -/
private theorem span_name {name : List Char} (h : '=' ∉ name) (cs : List Char) :
    (name ++ cs).takeWhile (· ≠ '=') = name ++ cs.takeWhile (· ≠ '=') ∧
      (name ++ cs).dropWhile (· ≠ '=') = cs.dropWhile (· ≠ '=') := by
  have hname : ∀ c ∈ name, decide (c ≠ '=') = true := by
    intro c hc
    apply decide_eq_true
    rintro rfl
    exact h hc
  exact ⟨List.takeWhile_append_of_pos hname, List.dropWhile_append_of_pos hname⟩

/-- What stands behind two dashes is read up to the first equals sign, and behind it. -/
private theorem ofText_dashes {s : String} {cs : List Char} (hs : s.toList = '-' :: '-' :: cs)
    (hne : cs ≠ []) :
    (cs.dropWhile (· ≠ '=') = [] →
      ofText s = .long (String.ofList (cs.takeWhile (· ≠ '='))) none) ∧
    ∀ c value, cs.dropWhile (· ≠ '=') = c :: value →
      ofText s = .long (String.ofList (cs.takeWhile (· ≠ '='))) (some (String.ofList value)) := by
  unfold ofText
  rw [hs]
  split
  · next h => simp_all
  · next ds _ h =>
    obtain rfl : cs = ds := by simpa using h
    constructor
    · intro hdrop
      simp only [hdrop]
    · intro c value hdrop
      simp only [hdrop]
  · next hdash h => exact absurd (List.cons.inj (List.cons.inj h).2).1.symm hdash
  · next hne _ => exact (hne _ rfl).elim

/-- An argument is taken for what it looks like. -/
theorem Looks.ofText_eq {s : String} {a : Argument} (h : Looks s a) : ofText s = a := by
  cases h with
  | divider => rfl
  | @long name hname hequals =>
    obtain ⟨htake, hdrop⟩ := span_name hequals []
    rw [List.append_nil] at htake hdrop
    have hne : name.toList ≠ [] := by simpa using hname
    rw [(ofText_dashes (by simp) hne).1 hdrop, htake]
    simp
  | @longWith name hequals v =>
    obtain ⟨htake, hdrop⟩ := span_name hequals ('=' :: v.toList)
    have hword : ("--" ++ name ++ "=" ++ v).toList =
        '-' :: '-' :: (name.toList ++ '=' :: v.toList) := by
      simp
    rw [(ofText_dashes hword (by simp)).2 '=' v.toList hdrop, htake]
    simp
  | @short c hc cs => simp [ofText, hc]
  | plain h =>
    rcases h with rfl | h
    · rfl
    · unfold ofText
      split
      · next hs => simp [hs] at h
      · next hs => simp [hs] at h
      · next hs => simp [hs] at h
      · rfl

/-- Whatever begins with two dashes looks like something. -/
private theorem exists_looks_dashes (cs : List Char) :
    ∃ a, Looks (String.ofList ('-' :: '-' :: cs)) a := by
  by_cases hequals : '=' ∈ cs
  · -- The name ends at the first equals sign.
    obtain ⟨name, v, hword, hname⟩ := List.eq_append_cons_of_mem hequals
    have hs : String.ofList ('-' :: '-' :: cs) =
        "--" ++ String.ofList name ++ "=" ++ String.ofList v := by
      rw [hword, ← String.toList_inj]
      simp
    rw [hs]
    exact ⟨_, .longWith (by simpa using hname) _⟩
  · cases cs with
    | nil => exact ⟨_, .divider⟩
    | cons c cs =>
      have hs : String.ofList ('-' :: '-' :: c :: cs) = "--" ++ String.ofList (c :: cs) := by
        rw [← String.toList_inj]
        simp
      rw [hs]
      exact ⟨_, .long (by simp [← String.toList_inj]) (by simpa using hequals)⟩

/-- Every argument looks like something. -/
theorem exists_looks (s : String) : ∃ a, Looks s a := by
  obtain ⟨cs, rfl⟩ : ∃ cs, s = String.ofList cs := ⟨s.toList, by simp⟩
  cases cs with
  | nil => exact ⟨_, .plain (.inr (by simp))⟩
  | cons c cs =>
    by_cases hc : c = '-'
    · subst hc
      cases cs with
      | nil => exact ⟨_, .plain (.inl rfl)⟩
      | cons c cs =>
        by_cases hc : c = '-'
        · subst hc
          exact exists_looks_dashes cs
        · exact ⟨_, .short hc cs⟩
    · exact ⟨_, .plain (.inr (by simpa using hc))⟩

/-- An argument looks like what it is taken for, and like nothing else. -/
theorem looks_iff {s : String} {a : Argument} : Looks s a ↔ ofText s = a := by
  constructor
  · exact Looks.ofText_eq
  · rintro rfl
    obtain ⟨a, ha⟩ := exists_looks s
    rwa [ha.ofText_eq]

/-- A plain argument is one that is taken for neither an option nor a divider. -/
theorem looks_plain_iff {s : String} : Plain s ↔ ofText s = .plain := by
  rw [← looks_iff]
  constructor
  · exact .plain
  · intro h
    cases h with
    | plain h => exact h

end Argument

/-! ## Options -/

namespace Level

variable {l : Level} {p : Parameter}

/-- The name of an option is that of one parameter of its level. -/
theorem option?_eq_give_iff {name : String} :
    l.option? name = some (.give p) ↔ p ∈ l.parameters ∧ p.longName = name := by
  have hfind : ∀ p ∈ l.parameters, l.parameters.find? (·.longName = p.longName) = some p := by
    cases l <;> decide
  unfold option?
  constructor
  · intro h
    split at h
    · next q hq =>
      obtain rfl : q = p := by simpa using h
      exact ⟨List.mem_of_find?_eq_some hq, by simpa using List.find?_some hq⟩
    · split at h
      · simp at h
      · split at h <;> simp at h
  · rintro ⟨hp, rfl⟩
    rw [hfind p hp]

/-- The letter of an option is that of one parameter of its level. -/
theorem letterOption?_eq_give_iff {c : Char} :
    l.letterOption? c = some (.give p) ↔ p ∈ l.parameters ∧ p.letter? = some c := by
  have hfind : ∀ p ∈ l.parameters, p.letter? ≠ none →
      l.parameters.find? (·.letter? = p.letter?) = some p := by
    cases l <;> decide
  unfold letterOption?
  constructor
  · intro h
    split at h
    · next q hq =>
      obtain rfl : q = p := by simpa using h
      exact ⟨List.mem_of_find?_eq_some hq, by simpa using List.find?_some hq⟩
    · split at h
      · simp at h
      · split at h <;> simp at h
  · rintro ⟨hp, hc⟩
    rw [← hc, hfind p hp (by rw [hc]; exact nofun)]

/-- A command that is named is one of the level. -/
theorem mem_commands_of_command? {s : String} {below : Level} (h : l.command? s = some below) :
    (s, below) ∈ l.commands := by
  obtain ⟨front, back, hcommands, -⟩ := List.lookup_eq_some_iff.1 h
  simp [hcommands]

/-- No command is named like an option. -/
theorem plain_of_command? {s : String} {below : Level} (h : l.command? s = some below) :
    Argument.Plain s := by
  have hplain : ∀ e ∈ l.commands, Argument.Plain e.1 := by
    cases l <;> decide
  exact hplain (s, below) (mem_commands_of_command? h)

end Level

namespace Parameter

variable {p : Parameter} {c : Char}

/-- No switch has a letter. -/
theorem isSwitch_of_letter? (h : p.letter? = some c) : p.isSwitch = false := by
  cases p <;> simp_all [letter?, isSwitch]

/-- No letter is a dash. -/
theorem ne_dash_of_letter? (h : p.letter? = some c) : c ≠ '-' := by
  cases p <;> simp only [letter?, Option.some.injEq, reduceCtorEq] at h <;> subst h <;> decide

/-- A long name behind two dashes is one. -/
theorem ofText_longName (p : Parameter) :
    Argument.ofText ("--" ++ p.longName) = .long p.longName none := by
  apply (Argument.Looks.long _ _).ofText_eq
  · cases p <;> decide
  · cases p <;> decide

/-- A long name ends at the first sign of equality, and the value behind it may hold others. -/
theorem ofText_longName_equals (p : Parameter) (v : String) :
    Argument.ofText ("--" ++ p.longName ++ "=" ++ v) = .long p.longName (some v) := by
  apply (Argument.Looks.longWith _ v).ofText_eq
  cases p <;> decide

/-- A letter behind one dash is one, with what is attached to it. -/
theorem ofText_letter (h : p.letter? = some c) (cs : List Char) :
    Argument.ofText (String.ofList ('-' :: c :: cs)) = .short c cs :=
  (Argument.Looks.short (ne_dash_of_letter? h) cs).ofText_eq

end Parameter

/-- What is attached to a letter is the value, with or without a sign of equality. -/
theorem attached?_eq_some_iff {cs : List Char} {v : String} :
    attached? cs = some v ↔
      cs = '=' :: v.toList ∨ (cs = v.toList ∧ cs ≠ [] ∧ cs.head? ≠ some '=') := by
  unfold attached?
  split
  · simp
  · simp [← String.toList_inj]
  · next hne hequals =>
    have hhead : cs.head? ≠ some '=' := by
      intro h
      obtain ⟨es, rfl⟩ := List.head?_eq_some_iff.1 h
      exact hequals es rfl
    simp only [Option.some.injEq, ← String.toList_inj, String.toList_ofList]
    constructor
    · rintro rfl
      exact .inr ⟨rfl, hne, hhead⟩
    · rintro (rfl | ⟨rfl, -, -⟩)
      · exact (hequals _ rfl).elim
      · rfl

/-! ## Giving values -/

/-- The words that give a value to a parameter. -/
inductive Gives : Parameter → String → List String → Prop
  /-- A switch is given by its name. -/
  | switch {p : Parameter} (h : p.isSwitch = true) :
    Gives p Parameter.onText ["--" ++ p.longName]
  | equals {p : Parameter} (h : p.isSwitch = false) (v : String) :
    Gives p v ["--" ++ p.longName ++ "=" ++ v]
  /-- The value is the next word. -/
  | apart {p : Parameter} (h : p.isSwitch = false) {v : String} (hv : Argument.Plain v) :
    Gives p v ["--" ++ p.longName, v]
  | letterApart {p : Parameter} {c : Char} (hc : p.letter? = some c) {v : String}
    (hv : Argument.Plain v) : Gives p v [String.ofList ['-', c], v]
  | letterEquals {p : Parameter} {c : Char} (hc : p.letter? = some c) (v : String) :
    Gives p v [String.ofList ('-' :: c :: '=' :: v.toList)]
  /-- The value follows the letter at once. -/
  | letterAttached {p : Parameter} {c : Char} (hc : p.letter? = some c) {v : String} (hne : v ≠ "")
    (hv : v.toList.head? ≠ some '=') : Gives p v [String.ofList ('-' :: c :: v.toList)]

end Gatehouse.CommandLine
