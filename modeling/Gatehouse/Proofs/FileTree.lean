import Gatehouse.FileTree

/-!
# Ways through a tree of files

A way leads through folders only, so it leads to the same place in every tree in which these
folders still stand. A path leads to a folder exactly if all its steps can be walked, and making
the folders of such a path changes nothing.

## Key results

- `walk_of_foldersStay`: a way stays open as long as the folders stay
- `isFolder_iff`: a path leads to a folder if and only if all of its steps can be walked
- `isFolder_of_makeFolders`: what was made a folder is one
- `makeFolders_of_isFolder`: a folder that is there is left as it is
- `sameFiles_makeFolders`: making folders leaves all files as they are
- `create_ok`, `append_ok`, `rename_ok`: what an operation on a file changes
-/

namespace Gatehouse.FileTree

/-- Whether all folders of a tree stand in another one. -/
def FoldersStay (t t' : FileTree) : Prop :=
  ∀ q, t.node? q = some .folder → t'.node? q = some .folder

variable {t t' : FileTree}

/-- A node is found where it was put, and all others where they were. -/
theorem node?_put (t : FileTree) (p : Place) (n : FileNode) (q : Place) :
    (t.put p n).node? q = if q = [] then some .folder else if q = p then some n else t.node? q := by
  by_cases hq : q = []
  · simp only [node?, hq, if_true]
  · simp only [node?, put, if_neg hq, Dict.get?_insert]

/-- A node that is put somewhere else is not noticed. -/
theorem node?_put_of_ne (t : FileTree) {p q : Place} (n : FileNode) (h : q ≠ p) :
    (t.put p n).node? q = t.node? q := by
  rw [node?_put, if_neg h]
  split
  · next hroot => rw [node?, if_pos hroot]
  · rfl

/-- After a move the node is found at its new place, nothing at its old one, and all others where
    they were. -/
theorem node?_move (t : FileTree) (old new : Place) (n : FileNode) (q : Place) :
    node? ⟨(t.nodes.erase old).insert new n⟩ q =
      if q = [] then some .folder else if q = new then some n
      else if q = old then none else t.node? q := by
  by_cases hq : q = []
  · simp only [node?, hq, if_true]
  · simp only [node?, if_neg hq, Dict.get?_insert, Dict.get?_erase]

/-- Folders stay where something is put in the place of what is none. -/
theorem foldersStay_put {p : Place} (h : t.node? p ≠ some .folder) (n : FileNode) :
    FoldersStay t (t.put p n) := by
  intro q hq
  have hne : q ≠ p := fun heq => h (heq ▸ hq)
  rw [node?_put, if_neg hne, hq]
  split <;> rfl

/-- Folders stay where what is none is moved to the place of what is none. -/
theorem foldersStay_move {old new : Place} (hold : t.node? old ≠ some .folder)
    (hnew : t.node? new ≠ some .folder) (n : FileNode) :
    FoldersStay t ⟨(t.nodes.erase old).insert new n⟩ := by
  intro q hq
  have hne : q ≠ old := fun heq => hold (heq ▸ hq)
  have hne' : q ≠ new := fun heq => hnew (heq ▸ hq)
  rw [node?_move, if_neg hne', if_neg hne, hq]
  split <;> rfl

/-! ### Walking -/

/-- A walk takes its first step into a folder and goes on from there. -/
theorem walk_cons_ok {here r : Place} {step : String} {steps : List String} :
    t.walk here (step :: steps) = .ok r ↔
      ∃ next, t.enter here step = .ok next ∧ t.node? next = some .folder ∧
        t.walk next steps = .ok r := by
  rw [walk]
  cases t.enter here step with
  | error e => simp [bind, Except.bind]
  | ok next =>
    by_cases hfolder : t.node? next = some .folder
    · simp [bind, Except.bind, hfolder]
    · simp [bind, Except.bind, hfolder]

/-- A walk along two parts of a path is a walk along the first and one from there along the
    second. -/
theorem walk_append_ok {here r : Place} {front back : List String} :
    t.walk here (front ++ back) = .ok r ↔
      ∃ there, t.walk here front = .ok there ∧ t.walk there back = .ok r := by
  induction front generalizing here with
  | nil => simp [walk]
  | cons step front ih =>
    simp only [List.cons_append, walk_cons_ok, ih]
    constructor
    · rintro ⟨next, henter, hfolder, there, hfront, hback⟩
      exact ⟨there, ⟨next, henter, hfolder, hfront⟩, hback⟩
    · rintro ⟨there, ⟨next, henter, hfolder, hfront⟩, hback⟩
      exact ⟨next, henter, hfolder, there, hfront, hback⟩

/-- A step to a folder can be made wherever the folder stands. -/
theorem enter_of_folder {here next : Place} {step : String} (h : t.enter here step = .ok next)
    (hfolder : t'.node? next = some .folder) : t'.enter here step = .ok next := by
  simp only [enter] at h ⊢
  split at h
  · next hdot => rwa [if_pos hdot]
  next hdot =>
  rw [if_neg hdot]
  split at h
  · next hup => rwa [if_pos hup]
  next hup =>
  rw [if_neg hup]
  split at h
  · cases h
  next hlong =>
  -- Only a step to a name asks the tree, and it asks for the node behind it.
  rw [if_neg hlong]
  split at h
  · cases h
    rw [hfolder]
    rfl
  · cases h

/-- A way stays open as long as the folders stay. -/
theorem walk_of_foldersStay (hstay : FoldersStay t t') {here r : Place} {steps : List String}
    (h : t.walk here steps = .ok r) : t'.walk here steps = .ok r := by
  induction steps generalizing here with
  | nil => exact h
  | cons step steps ih =>
    obtain ⟨next, henter, hfolder, hrest⟩ := walk_cons_ok.1 h
    exact walk_cons_ok.2
      ⟨next, enter_of_folder henter (hstay next hfolder), hstay next hfolder, ih hrest⟩

/-- The folder of a path is reached as before if no folder is lost. -/
theorem reachUpper_of_foldersStay (hstay : FoldersStay t t') {p : Path} {upper : Place}
    (h : t.reachUpper p = .ok upper) : t'.reachUpper p = .ok upper := by
  simp only [reachUpper] at h ⊢
  split at h
  · cases h
  · exact walk_of_foldersStay hstay h

/-! ### Folders -/

/-- A path to which nothing is objected has a step. -/
theorem steps_ne_nil {p : Path} (h : objection? p = none) : p.steps ≠ [] := by
  intro hsteps
  simp only [objection?, Path.isEmpty, hsteps] at h
  split at h
  · cases h
  · split at h <;> simp at h

/-- A path leads to a folder if and only if all of its steps can be walked. -/
theorem isFolder_iff {p : Path} (h : objection? p = none) :
    t.isFolder p = true ↔ ∃ r, t.walk p.start p.steps = .ok r := by
  -- The last step is looked at apart, and the others are walked in both.
  have hne := steps_ne_nil h
  have hlast : p.steps.getLast?.getD "" = p.steps.getLast hne := by
    rw [List.getLast?_eq_some_getLast hne]
    rfl
  rw [← List.dropLast_concat_getLast hne]
  simp only [walk_append_ok, walk, isFolder, entry, reach, reachUpper, h, hlast]
  cases t.walk p.start p.steps.dropLast with
  | error e => simp [bind, Except.bind]
  | ok upper =>
    cases henter : t.enter upper (p.steps.getLast hne) with
    | error e => simp [bind, Except.bind, henter]
    | ok here =>
      cases hnode : t.node? here with
      | none => simp [bind, Except.bind, henter, hnode]
      | some n => cases n <;> simp [bind, Except.bind, henter, hnode]

/-- A folder is one still if no folder is lost. -/
theorem isFolder_of_foldersStay (hstay : FoldersStay t t') {p : Path}
    (h : t.isFolder p = true) : t'.isFolder p = true := by
  cases hobjection : objection? p with
  | some e => simp [isFolder, entry, reach, reachUpper, hobjection, bind, Except.bind] at h
  | none =>
    obtain ⟨r, hr⟩ := (isFolder_iff hobjection).1 h
    exact (isFolder_iff hobjection).2 ⟨r, walk_of_foldersStay hstay hr⟩

/-! ### Names -/

/-- Whether a step can be the name of something new. -/
def IsName (s : String) : Prop :=
  s ≠ "" ∧ s ≠ "." ∧ s ≠ ".." ∧ s.utf8ByteSize ≤ nameLimit

/-- A name leads to what stands under it in the folder. -/
theorem enter_name {name : String} (h : IsName name) (here : Place) :
    t.enter here name =
      if (t.node? (here ++ [name])).isSome then .ok (here ++ [name]) else .error .notFound := by
  obtain ⟨hblank, hdot, hup, hlong⟩ := h
  have hlong : ¬nameLimit < name.utf8ByteSize := Nat.not_lt.2 hlong
  simp only [enter, hblank, hdot, hup, hlong, decide_false, Bool.or_self, Bool.false_eq_true,
    if_false]

/-- The folder of a path is reached by a walk along all steps but the last. -/
theorem reachUpper_ok {p : Path} {upper : Place} :
    t.reachUpper p = .ok upper ↔
      objection? p = none ∧ t.walk p.start p.steps.dropLast = .ok upper := by
  rw [reachUpper]
  cases objection? p with
  | some e => simp
  | none => simp

/-- A new place is one with a proper name in the folder of its path. -/
theorem newPlace_ok {p : Path} {taken : SystemError} {here : Place} :
    t.newPlace p taken = .ok here ↔
      ∃ upper, t.reachUpper p = .ok upper ∧ IsName (p.steps.getLast?.getD "") ∧
        here = upper ++ [p.steps.getLast?.getD ""] := by
  unfold newPlace
  cases t.reachUpper p with
  | error e => simp [bind, Except.bind]
  | ok upper =>
    simp only [bind, Except.bind, Except.ok.injEq, exists_eq_left', IsName]
    -- The code judges a name in two steps; `IsName` has all of its conditions.
    split
    · next h =>
      simp only [Bool.or_eq_true, decide_eq_true_eq] at h
      constructor
      · intro hc
        cases hc
      · rintro ⟨⟨hblank, hdot, hup, -⟩, -⟩
        rcases h with (h | h) | h
        · exact absurd h hblank
        · exact absurd h hdot
        · exact absurd h hup
    · next h =>
      simp only [Bool.or_eq_true, decide_eq_true_eq, not_or] at h
      obtain ⟨⟨hblank, hdot⟩, hup⟩ := h
      split
      · next hlong => simp [Nat.not_le.2 hlong]
      · next hlong => simp [hblank, hdot, hup, Nat.not_lt.1 hlong, eq_comm]

/-! ### Making folders -/

/-- What is left out at the end of a path leads nowhere. -/
theorem steps_eq_trimmed (p : Path) :
    ∃ blanks, p.steps = p.trimmed.steps ++ blanks ∧ ∀ s ∈ blanks, s = "" := by
  refine ⟨(p.steps.reverse.takeWhile (· = "")).reverse, ?_, ?_⟩
  · rw [Path.trimmed, ← List.reverse_append, List.takeWhile_append_dropWhile, List.reverse_reverse]
  · intro s hs
    have hall := List.all_eq_true.1 List.all_takeWhile s (List.mem_reverse.1 hs)
    exact of_decide_eq_true hall

/-- Steps without a name lead nowhere else. -/
theorem walk_blanks {here : Place} (h : t.node? here = some .folder) {blanks : List String}
    (hblanks : ∀ s ∈ blanks, s = "") : t.walk here blanks = .ok here := by
  induction blanks with
  | nil => rfl
  | cons s blanks ih =>
    rw [hblanks s List.mem_cons_self]
    exact walk_cons_ok.2 ⟨here, rfl, h, ih fun s' hs' => hblanks s' (List.mem_cons_of_mem s hs')⟩

/-- A path starts where it did when slashes are taken off its end. -/
theorem start_trimmed {p : Path} (h : p.trimmed.isEmpty = false) : p.trimmed.start = p.start := by
  obtain ⟨blanks, hsteps, -⟩ := steps_eq_trimmed p
  obtain ⟨hnil, hblank⟩ : p.trimmed.steps ≠ [] ∧ p.trimmed.steps ≠ [""] := by
    simpa only [Path.isEmpty, Bool.or_eq_false_iff, decide_eq_false_iff_not] using h
  obtain ⟨s, rest, htrimmed⟩ := List.exists_cons_of_ne_nil hnil
  have hempty : p.isEmpty = false := by
    rw [Path.isEmpty, hsteps, htrimmed, List.cons_append]
    simp only [reduceCtorEq, decide_false, Bool.false_or, decide_eq_false_iff_not,
      List.cons.injEq, List.append_eq_nil_iff]
    rintro ⟨rfl, rfl, -⟩
    exact hblank htrimmed
  -- Something is left of the path, so it begins with the same step.
  have hhead : p.trimmed.steps.head? = p.steps.head? := by
    rw [hsteps, htrimmed]
    rfl
  have habsolute : p.trimmed.isAbsolute = p.isAbsolute := by
    rw [Path.isAbsolute, Path.isAbsolute, hhead, h, hempty]
  rw [Path.start, habsolute]
  rfl

/-- What is made when a folder is made. -/
theorem makeFolder_ok {p : Path} (h : t.makeFolder p = .ok t') :
    objection? p = none ∧ ∃ front name blanks upper,
      p.steps = front ++ name :: blanks ∧ (∀ s ∈ blanks, s = "") ∧ IsName name ∧
      t.walk p.start front = .ok upper ∧ t.node? (upper ++ [name]) = none ∧
      t' = t.put (upper ++ [name]) .folder := by
  unfold makeFolder at h
  split at h
  · cases h
  next hobjection =>
  split at h
  · cases h
  next hempty =>
  have hempty : p.trimmed.isEmpty = false := Bool.eq_false_iff.2 hempty
  cases hplace : t.newPlace p.trimmed .alreadyExists with
  | error e => simp [hplace, bind, Except.bind] at h
  | ok here =>
    simp only [hplace, bind, Except.bind] at h
    split at h
    · cases h
    next hvacant =>
    obtain ⟨upper, hupper, hname, rfl⟩ := newPlace_ok.1 hplace
    obtain ⟨hobjection', hwalk⟩ := reachUpper_ok.1 hupper
    obtain ⟨blanks, hsteps, hblanks⟩ := steps_eq_trimmed p
    -- The name is the last step that is not blank.
    have hlast : p.trimmed.steps.dropLast ++ [p.trimmed.steps.getLast?.getD ""] =
        p.trimmed.steps := by
      rw [List.getLast?_eq_some_getLast (steps_ne_nil hobjection')]
      exact List.dropLast_concat_getLast _
    rw [start_trimmed hempty] at hwalk
    refine ⟨hobjection, _, _, blanks, upper, ?_, hblanks, hname, hwalk, ?_, ?_⟩
    · rw [hsteps, ← hlast]
      simp
    · simpa using hvacant
    · cases h
      rfl

/-- A folder that is there is not made again. -/
theorem makeFolder_of_isFolder {p : Path} (h : t.isFolder p = true) :
    ∃ e, t.makeFolder p = .error e := by
  cases hmade : t.makeFolder p with
  | error e => exact ⟨e, rfl⟩
  | ok t' =>
    -- The way to the folder would lead over the place where nothing stands.
    obtain ⟨hobjection, front, name, blanks, upper, hsteps, -, hname, hwalk, hvacant, -⟩ :=
      makeFolder_ok hmade
    obtain ⟨r, hr⟩ := (isFolder_iff hobjection).1 h
    rw [hsteps] at hr
    obtain ⟨there, hfront, hback⟩ := walk_append_ok.1 hr
    obtain ⟨next, henter, -, -⟩ := walk_cons_ok.1 hback
    rw [hwalk] at hfront
    cases hfront
    rw [enter_name hname, hvacant] at henter
    cases henter

/-- No folder is lost when one is made. -/
theorem foldersStay_makeFolder {p : Path} (h : t.makeFolder p = .ok t') : FoldersStay t t' := by
  obtain ⟨-, front, name, blanks, upper, -, -, -, -, hvacant, rfl⟩ := makeFolder_ok h
  exact foldersStay_put (by rw [hvacant]; exact nofun) .folder

/-- What was made a folder is one. -/
theorem isFolder_of_makeFolder {p : Path} (h : t.makeFolder p = .ok t') :
    t'.isFolder p = true := by
  have hstay := foldersStay_makeFolder h
  obtain ⟨hobjection, front, name, blanks, upper, hsteps, hblanks, hname, hwalk, -, rfl⟩ :=
    makeFolder_ok h
  have hnode : (t.put (upper ++ [name]) .folder).node? (upper ++ [name]) = some .folder := by
    rw [node?_put, if_pos rfl]
    split <;> rfl
  refine (isFolder_iff hobjection).2 ⟨upper ++ [name], ?_⟩
  -- The way leads to the folder above as before, on to the new one, and stays there.
  rw [hsteps, walk_append_ok]
  refine ⟨upper, walk_of_foldersStay hstay hwalk, walk_cons_ok.2 ⟨_, ?_, hnode, ?_⟩⟩
  · rw [enter_name hname, hnode]
    rfl
  · exact walk_blanks hnode hblanks

/-- A folder that was ensured is there. -/
theorem ensureFolder_ok {p : Path} (h : t.ensureFolder p = (.ok (), t')) :
    t'.isFolder p = true := by
  unfold ensureFolder at h
  split at h
  · next hmade =>
    cases h
    exact isFolder_of_makeFolder hmade
  · split at h
    · next hfolder =>
      cases h
      exact hfolder
    · cases h

/-- A folder that was made with those above it is one. -/
theorem isFolder_of_makeFolders {p : Path} (h : t.makeFolders p = (.ok (), t')) :
    p.isEmpty = true ∨ t'.isFolder p = true := by
  unfold makeFolders at h
  split at h
  · next hempty => exact .inl hempty
  right
  cases habove : p.above with
  | nil =>
    rw [habove, makeFoldersBelow] at h
    exact ensureFolder_ok h
  | cons upper uppers =>
    rw [habove, makeFoldersBelow] at h
    split at h
    · split at h
      · exact ensureFolder_ok h
      · cases h
    · exact ensureFolder_ok h

/-- A folder that is there is left as it is. -/
theorem makeFolders_of_isFolder {p : Path} (h : p.isEmpty = true ∨ t.isFolder p = true) :
    t.makeFolders p = (.ok (), t) := by
  unfold makeFolders
  split
  · rfl
  next hempty =>
  have hfolder := h.resolve_left hempty
  -- The first attempt finds the folder, so those above it are not tried.
  have hensure : t.ensureFolder p = (.ok (), t) := by
    obtain ⟨e, he⟩ := makeFolder_of_isFolder hfolder
    rw [ensureFolder, he]
    exact if_pos hfolder
  cases p.above with
  | nil => exact hensure
  | cons upper uppers =>
    rw [makeFoldersBelow, hensure]

/-! ### What changes -/

/-- Something else than a folder adds no folder to a tree that it is put into. -/
theorem foldersStay_of_put {p : Place} {n : FileNode} (h : n ≠ .folder) :
    FoldersStay (t.put p n) t := by
  intro q hq
  rw [node?_put] at hq
  split at hq
  · next hroot => rw [node?, if_pos hroot]
  · split at hq
    · exact absurd (Option.some.inj hq) h
    · exact hq

/-- A file that was created is empty, and a device is opened as it is. -/
theorem create_ok {p : Path} (h : t.create p = .ok t') :
    ∃ here, t.newPlace p .isADirectory = .ok here ∧
      (t.node? here = some .device ∧ t' = t ∨
        t.node? here ≠ some .folder ∧ t' = t.put here (.file [])) := by
  rw [create] at h
  -- The place is a folder, a device, or free for a file.
  cases hplace : t.newPlace p .isADirectory with
  | error e => simp [hplace, bind, Except.bind] at h
  | ok here =>
    simp only [hplace, bind, Except.bind] at h
    refine ⟨here, rfl, ?_⟩
    split at h
    · cases h
    · next hdevice =>
      cases h
      exact .inl ⟨hdevice, rfl⟩
    · next hfolder _ =>
      cases h
      exact .inr ⟨hfolder, rfl⟩

/-- A piece goes behind the contents of a file, and into a device without a trace. -/
theorem append_ok {p : Path} {piece : Bytes} (h : t.append p piece = .ok t') :
    ∃ here, t.reach p = .ok here ∧
      (t.node? here = some .device ∧ t' = t ∨
        ∃ content, t.node? here = some (.file content) ∧
          t' = t.put here (.file (content ++ piece))) := by
  rw [append] at h
  cases hreach : t.reach p with
  | error e => simp [hreach, bind, Except.bind] at h
  | ok here =>
    simp only [hreach, bind, Except.bind] at h
    refine ⟨here, rfl, ?_⟩
    split at h
    · next content hfile =>
      cases h
      exact .inr ⟨content, hfile, rfl⟩
    · next hdevice =>
      cases h
      exact .inl ⟨hdevice, rfl⟩
    · cases h
    · cases h

/-- Nothing changes when a file is brought to the disk, and a device cannot be. -/
theorem sync_ok {p : Path} (h : t.sync p = .ok t') : t' = t ∧ t.entry p ≠ .ok .device := by
  rw [sync] at h
  split at h
  · cases h
  · next hdevice =>
    cases h
    exact ⟨rfl, hdevice⟩

/-- A file that was renamed stands at the new place, over what may have been there, and no more at
    the old one. -/
theorem rename_ok {old new : Path} (h : t.rename old new = .ok t') :
    ∃ here there node, t.reach old = .ok here ∧ t.node? here = some node ∧ node ≠ .folder ∧
      t.newPlace new .isADirectory = .ok there ∧ t.node? there ≠ some .folder ∧
      t' = ⟨(t.nodes.erase here).insert there node⟩ := by
  rw [rename, entry] at h
  -- Each way to fail is taken off in turn; what is left is the way to succeed.
  cases hreach : t.reach old with
  | error e => simp [hreach, bind, Except.bind] at h
  | ok here =>
    simp only [hreach, bind, Except.bind] at h
    cases hnode : t.node? here with
    | none => simp [hnode] at h
    | some node =>
      simp only [hnode] at h
      split at h
      · cases h
      next hkind =>
      cases hplace : t.newPlace new .isADirectory with
      | error e => simp [hplace] at h
      | ok there =>
        simp only [hplace] at h
        split at h
        · cases h
        next hfree =>
        cases h
        exact ⟨here, there, node, rfl, hnode, hkind, rfl, hfree, rfl⟩

/-- The bytes of the file at a place. -/
def content? (t : FileTree) (p : Place) : Option Bytes :=
  match t.node? p with
  | some (.file content) => some content
  | _ => none

/-- Contents are those of a file. -/
theorem content?_eq_some_iff {p : Place} {content : Bytes} :
    t.content? p = some content ↔ t.node? p = some (.file content) := by
  unfold content?
  split
  · next h => simp [h]
  · next h =>
    constructor
    · nofun
    · exact fun h' => absurd h' (h content)

/-- Whether two trees differ in nothing but folders. -/
def SameFiles (t t' : FileTree) : Prop :=
  ∀ q n, n ≠ .folder → (t'.node? q = some n ↔ t.node? q = some n)

/-- Every tree has the files that it has. -/
theorem SameFiles.refl (t : FileTree) : SameFiles t t := fun _ _ _ => Iff.rfl

/-- Trees that have the files of a third one have the same files. -/
theorem SameFiles.trans {t₁ t₂ t₃ : FileTree} (h : SameFiles t₁ t₂) (h' : SameFiles t₂ t₃) :
    SameFiles t₁ t₃ := fun q n hn => (h' q n hn).trans (h q n hn)

/-- Trees with the same files have the same contents everywhere. -/
theorem SameFiles.content?_eq (h : SameFiles t t') (p : Place) : t'.content? p = t.content? p := by
  ext content
  rw [content?_eq_some_iff, content?_eq_some_iff]
  exact h p (.file content) nofun

/-- Folders that are made along the way change no file. -/
theorem sameFiles_ensureFolder (t : FileTree) (p : Path) : SameFiles t (t.ensureFolder p).2 := by
  unfold ensureFolder
  split
  · next t' hmade =>
    -- The new folder stands where nothing stood.
    obtain ⟨-, front, name, blanks, upper, -, -, -, -, hvacant, rfl⟩ := makeFolder_ok hmade
    intro q n hn
    dsimp only
    rw [node?_put]
    split
    · next hroot => rw [node?, if_pos hroot]
    · split
      · next hq =>
        rw [hq, hvacant]
        constructor
        · intro hfolder
          exact absurd (Option.some.inj hfolder).symm hn
        · nofun
      · rfl
  · split <;> exact SameFiles.refl t

/-- Making folders leaves all files as they are, also if it does not come to its end. -/
theorem sameFiles_makeFolders (t : FileTree) (p : Path) : SameFiles t (t.makeFolders p).2 := by
  have hbelow : ∀ (uppers : List Path) (t : FileTree) (p : Path),
      SameFiles t (t.makeFoldersBelow p uppers).2 := by
    intro uppers
    -- Induction on the folders above: each attempt to make one leaves the files.
    induction uppers with
    | nil => exact sameFiles_ensureFolder
    | cons upper uppers ih =>
      intro t p
      have hfirst := sameFiles_ensureFolder t p
      rw [makeFoldersBelow]
      split
      · next t₁ h₁ =>
        rw [h₁] at hfirst
        have habove := ih t₁ upper
        split
        · next t₂ h₂ =>
          rw [h₂] at habove
          exact (hfirst.trans habove).trans (sameFiles_ensureFolder t₂ p)
        · next e t₂ h₂ =>
          rw [h₂] at habove
          exact hfirst.trans habove
      · exact hfirst
  unfold makeFolders
  split
  · exact SameFiles.refl t
  · exact hbelow p.above t p

end Gatehouse.FileTree
