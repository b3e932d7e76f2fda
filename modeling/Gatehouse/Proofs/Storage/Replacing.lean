import Gatehouse.Proofs.Storage.Folder

/-!
# How far a replacement came

The last of the steps that replace a document is the only one that touches it. So if one of them
fails, or if they are broken off, the document is the one that there was, and if all of them were
performed it is the new one as a whole. This is asked of a disk step by step, and a folder does it
whatever stands in it.

## Key results

- `performAll_drafting`: nothing is seen to change before the last step
- `Atomic.breakOff`: a replacement that is broken off leaves the old document or the new one
- `Folder.perform_ne_rename`: what a step before the last one does in a folder
- `Folder.keptUntilRename_files` / `Folder.atomic`: folders do what is asked of a disk
-/

namespace Gatehouse.Storage

/-! ### Steps -/

section Steps

variable {δ : Type} [Disk δ] {d d' : δ} {s : Step} {ss ss' : List Step}

/-- Steps behind others are performed where these have succeeded. -/
theorem performAll_append :
    performAll (ss ++ ss') d =
      match performAll ss d with
      | (.ok (), d₁) => performAll ss' d₁
      | (.error e, d₁) => (.error e, d₁) := by
  induction ss generalizing d with
  | nil => rfl
  | cons s ss ih =>
    rw [List.cons_append, performAll, performAll]
    cases Disk.perform s d with
    | mk result d₁ =>
      cases result with
      | ok _ => exact ih
      | error e => rfl

/-- The steps before the last one. -/
def drafting (pieces : List Bytes) : List Step := .create :: pieces.map .write ++ [.sync]

/-- A replacement is a draft that is renamed. -/
theorem replacing_eq (pieces : List Bytes) : replacing pieces = drafting pieces ++ [.rename] := by
  simp [replacing, drafting]

/-- No step of a draft renames. -/
theorem ne_rename_of_mem_drafting {pieces : List Bytes} (h : s ∈ drafting pieces) :
    s ≠ .rename := by
  rintro rfl
  simp [drafting] at h

/-- Whether what is seen of a disk stays as it is until a new document takes its place. -/
structure KeptUntilRename {γ : Type} (view : δ → γ) : Prop where
  perform : ∀ s d, s ≠ .rename → view (Disk.perform s d).2 = view d
  rename_error : ∀ d d' e, Disk.perform .rename d = (.error e, d') → view d' = view d

/-- Whether the document of a disk is replaced as a whole or not at all. -/
structure Atomic (δ : Type) [Disk δ] : Prop where
  kept : KeptUntilRename fun d : δ => Disk.document? d
  replaced : ∀ (d d' : δ) (pieces : List Bytes), performAll (replacing pieces) d = (.ok (), d') →
    Disk.document? d' = some (.ok pieces.flatten)

variable {γ : Type} {view : δ → γ}

/-- What holds and is kept by every step before the last one holds after such steps. -/
theorem performAll_induction {P : δ → Prop}
    (hstep : ∀ s d, s ≠ .rename → P d → P (Disk.perform s d).2) (hss : ∀ s ∈ ss, s ≠ .rename)
    (h : P d) : P (performAll ss d).2 := by
  -- Induction on the steps; where one fails, the others are not performed.
  induction ss generalizing d with
  | nil => exact h
  | cons s ss ih =>
    have hfirst := hstep s d (hss s List.mem_cons_self) h
    rw [performAll]
    split
    · next d₁ h₁ =>
      rw [h₁] at hfirst
      exact ih (fun s' hs' => hss s' (List.mem_cons_of_mem s hs')) hfirst
    · next e d₁ h₁ =>
      rw [h₁] at hfirst
      exact hfirst

/-- A prefix of the steps that is not all of them does without the last one. -/
theorem ne_rename_of_mem_take {pieces : List Bytes} {n : Nat} (hn : n < (replacing pieces).length)
    (hs : s ∈ (replacing pieces).take n) : s ≠ .rename := by
  rw [replacing_eq, List.length_append, List.length_singleton, Nat.lt_succ_iff] at hn
  rw [replacing_eq, List.take_append_of_le_length hn] at hs
  exact ne_rename_of_mem_drafting (List.mem_of_mem_take hs)

/-- What is seen of a disk is kept through all steps that do not rename. -/
theorem KeptUntilRename.performAll (hkept : KeptUntilRename view) (h : ∀ s ∈ ss, s ≠ .rename)
    (d : δ) : view (performAll ss d).2 = view d :=
  performAll_induction (P := fun d' => view d' = view d)
    (fun s d' hs hd' => (hkept.perform s d' hs).trans hd') h rfl

/-- A replacement that fails is not seen. -/
theorem KeptUntilRename.replacing_error (hkept : KeptUntilRename view) {pieces : List Bytes}
    {e : SystemError} (h : Storage.performAll (replacing pieces) d = (.error e, d')) :
    view d' = view d := by
  have hdraft : view (Storage.performAll (drafting pieces) d).2 = view d :=
    hkept.performAll (fun _ => ne_rename_of_mem_drafting) d
  rw [replacing_eq, performAll_append] at h
  split at h
  · next d₁ h₁ =>
    -- Only the last step failed.
    rw [h₁] at hdraft
    rw [Storage.performAll] at h
    split at h
    · cases h
    · next e' d₂ h₂ =>
      cases h
      exact (hkept.rename_error _ _ _ h₂).trans hdraft
  · next e' d₁ h₁ =>
    cases h
    rwa [h₁] at hdraft

/-- A replacement that is broken off before its last step is not seen. -/
theorem KeptUntilRename.breakOff (hkept : KeptUntilRename view) {pieces : List Bytes} {n : Nat}
    (h : n < (replacing pieces).length) (d : δ) :
    view (Storage.performAll ((replacing pieces).take n) d).2 = view d :=
  hkept.performAll (fun _ => ne_rename_of_mem_take h) d

/-- Wherever a replacement is broken off, and whether or not its steps fail, the document is the one
    that there was or the new one. -/
theorem Atomic.breakOff (hatomic : Atomic δ) (pieces : List Bytes) (n : Nat) (d : δ) :
    Disk.document? (performAll ((replacing pieces).take n) d).2 = Disk.document? d ∨
      (replacing pieces).length ≤ n ∧
        Disk.document? (performAll ((replacing pieces).take n) d).2 =
          some (.ok pieces.flatten) := by
  -- Only if no step is left out, the last one may have been performed.
  rcases Nat.lt_or_ge n (replacing pieces).length with hn | hn
  · exact .inl (hatomic.kept.breakOff hn d)
  rw [List.take_of_length_le hn]
  cases hall : performAll (replacing pieces) d with
  | mk result d' =>
    cases result with
    | error e => exact .inl (hatomic.kept.replacing_error hall)
    | ok _ => exact .inr ⟨hn, hatomic.replaced d d' pieces hall⟩

end Steps

/-! ### Folders -/

namespace Folder

open FileTree (FoldersStay SameFiles)

variable {d d' : Folder} {upper : Place} {written : Bytes}

/-- The files of a folder's tree by their places, but for temporary ones. -/
def files (d : Folder) (q : Place) : Option Bytes :=
  if q.getLast? = some "keyhold.json.tmp" then none else d.tree.content? q

/-- The document is what stands under its name in the folder. -/
theorem document?_eq (h : d.tree.reachUpper d.dataFile = .ok upper) :
    Disk.document? d =
      match d.tree.node? (upper ++ ["keyhold.json"]) with
      | none => none
      | some .folder => some (.error .isADirectory)
      | some (.file content) => some (.ok content)
      | some .device => some (.ok []) := by
  have hexists := exists?_join h isName_document
  have hentry := entry_join h isName_document
  simp only [Disk.document?, dataFile, hexists, FileTree.read, hentry]
  cases d.tree.node? (upper ++ ["keyhold.json"]) with
  | none => rfl
  | some n => cases n <;> rfl

/-- There is no document in a folder that is not reached. -/
theorem document?_of_error {e : SystemError} (h : d.tree.reachUpper d.dataFile = .error e) :
    Disk.document? d = none := by
  simp [Disk.document?, FileTree.exists?, FileTree.entry, FileTree.reach, h, bind, Except.bind,
    Except.toOption]

/-- What a step before the last one does: it leaves the tree, or puts a file in the place of the
    temporary one. -/
theorem perform_ne_rename {s : Step} (hs : s ≠ .rename) (d : Folder) :
    (Disk.perform s d).2 = d ∨
      ∃ upper content, d.tree.reachUpper d.tempFile = .ok upper ∧
        d.tree.node? (upper ++ ["keyhold.json.tmp"]) ≠ some .folder ∧
        (Disk.perform s d).2 =
          { d with tree := d.tree.put (upper ++ ["keyhold.json.tmp"]) (.file content) } := by
  have hlast : d.tempFile.steps.getLast?.getD "" = "keyhold.json.tmp" := by
    simp [tempFile, Path.join]
  cases s with
  | rename => exact absurd rfl hs
  | sync =>
    left
    simp only [Disk.perform, perform]
    split
    · next t h => rw [(FileTree.sync_ok h).1]
    · rfl
  | create =>
    simp only [Disk.perform, perform]
    split
    · next t h =>
      -- A device stays what it is; a file, old or new, becomes an empty one.
      obtain ⟨here, hplace, ⟨-, rfl⟩ | ⟨hfree, rfl⟩⟩ := FileTree.create_ok h
      · exact .inl rfl
      · obtain ⟨upper, hupper, -, rfl⟩ := FileTree.newPlace_ok.1 hplace
        rw [hlast] at hfree ⊢
        exact .inr ⟨upper, [], hupper, hfree, rfl⟩
    · exact .inl rfl
  | write piece =>
    simp only [Disk.perform, perform]
    split
    · next t h =>
      obtain ⟨here, hreach, ⟨-, rfl⟩ | ⟨content, hfile, rfl⟩⟩ := FileTree.append_ok h
      · exact .inl rfl
      · cases hupper : d.tree.reachUpper d.tempFile with
        | error e => simp [FileTree.reach, hupper, bind, Except.bind] at hreach
        | ok upper =>
          rw [tempFile, reach_join hupper isName_temporary] at hreach
          split at hreach
          · cases hreach
            exact .inr ⟨upper, _, rfl, by simp [hfile], rfl⟩
          · cases hreach
    · exact .inl rfl

/-- All files but the temporary one are kept until it is renamed. -/
theorem keptUntilRename_files : KeptUntilRename files := by
  constructor
  · intro s d hs
    obtain h | ⟨upper, content, -, -, h⟩ := perform_ne_rename hs d
    · rw [h]
    · funext q
      rw [h, files, files]
      split
      · rfl
      · next hq =>
        -- The one place that changed has the name that is left out.
        have hne : q ≠ upper ++ ["keyhold.json.tmp"] := by
          rintro rfl
          simp at hq
        rw [FileTree.content?, FileTree.content?, FileTree.node?_put_of_ne _ _ hne]
  · intro d d' e h
    simp only [Disk.perform, perform] at h
    split at h <;> cases h
    rfl

/-- Folders that are made do not touch a file. -/
theorem files_prepare (d : Folder) : files (Disk.prepare d).2 = files d := by
  funext q
  rw [files, files]
  exact congrArg _ ((FileTree.sameFiles_makeFolders d.tree d.path).content?_eq q)

/-! #### Documents -/

/-- The document of a folder is the same wherever the same folders stand, and the same under its
    name. -/
theorem document?_congr {t : FileTree} (hstay : FoldersStay d.tree t) (hback : FoldersStay t d.tree)
    (hsame : ∀ upper : Place,
      t.node? (upper ++ ["keyhold.json"]) = d.tree.node? (upper ++ ["keyhold.json"])) :
    Disk.document? { d with tree := t } = Disk.document? d := by
  -- The way to the document leads over folders only, so it is open in both trees or in none.
  cases h : d.tree.reachUpper d.dataFile with
  | ok upper =>
    have h' := FileTree.reachUpper_of_foldersStay hstay h
    rw [document?_eq h, document?_eq (d := { d with tree := t }) h', hsame upper]
  | error e =>
    cases h' : t.reachUpper d.dataFile with
    | error e' => rw [document?_of_error h, document?_of_error (d := { d with tree := t }) h']
    | ok upper =>
      rw [FileTree.reachUpper_of_foldersStay hback h'] at h
      cases h

/-- The document is kept until another one takes its place. -/
theorem keptUntilRename_document? : KeptUntilRename fun d : Folder => Disk.document? d := by
  constructor
  · intro s d hs
    obtain h | ⟨upper, content, -, hfree, h⟩ := perform_ne_rename hs d
    · rw [h]
    · rw [h]
      refine document?_congr (FileTree.foldersStay_put hfree _) (FileTree.foldersStay_of_put nofun)
        fun upper' => FileTree.node?_put_of_ne _ _ ?_
      simp
  · intro d d' e h
    simp only [Disk.perform, perform] at h
    split at h <;> cases h
    rfl

/-- Whether bytes were written to the temporary file, or to a device that stands in its place. -/
structure Draft (upper : Place) (written : Bytes) (d : Folder) : Prop where
  temporary : d.tree.reachUpper d.tempFile = .ok upper
  node : d.tree.node? (upper ++ ["keyhold.json.tmp"]) = some (.file written) ∨
    d.tree.node? (upper ++ ["keyhold.json.tmp"]) = some .device

/-- Once the temporary file is there with some contents, it is a draft of them. -/
theorem Draft.put (h : d.tree.reachUpper d.tempFile = .ok upper)
    (hfree : d.tree.node? (upper ++ ["keyhold.json.tmp"]) ≠ some .folder) (content : Bytes) :
    Draft upper content
      { d with tree := d.tree.put (upper ++ ["keyhold.json.tmp"]) (.file content) } where
  temporary := FileTree.reachUpper_of_foldersStay (FileTree.foldersStay_put hfree _) h
  node := by
    left
    rw [FileTree.node?_put, if_neg (by simp), if_pos rfl]

/-- A created file is an empty draft. -/
theorem draft_of_create (h : Disk.perform .create d = (.ok (), d')) :
    ∃ upper, Draft upper [] d' := by
  have hlast : d.tempFile.steps.getLast?.getD "" = "keyhold.json.tmp" := by
    simp [tempFile, Path.join]
  simp only [Disk.perform, perform] at h
  split at h
  · next t hcreate =>
    cases h
    obtain ⟨here, hplace, hdone⟩ := FileTree.create_ok hcreate
    obtain ⟨upper, hupper, -, rfl⟩ := FileTree.newPlace_ok.1 hplace
    rw [hlast] at hdone
    obtain ⟨hdevice, rfl⟩ | ⟨hfree, rfl⟩ := hdone
    · exact ⟨upper, hupper, .inr hdevice⟩
    · exact ⟨upper, .put hupper hfree []⟩
  · cases h

/-- A piece is written behind the others of a draft. -/
theorem Draft.write (h : Draft upper written d) {piece : Bytes}
    (hwrite : Disk.perform (.write piece) d = (.ok (), d')) :
    Draft upper (written ++ piece) d' := by
  simp only [Disk.perform, perform] at hwrite
  split at hwrite
  · next t happend =>
    cases hwrite
    obtain ⟨here, hreach, hdone⟩ := FileTree.append_ok happend
    rw [tempFile, reach_join h.temporary isName_temporary] at hreach
    split at hreach
    · cases hreach
      obtain ⟨hdevice, rfl⟩ | ⟨content, hfile, rfl⟩ := hdone
      · exact ⟨h.temporary, .inr hdevice⟩
      · -- What is there is what was written.
        have hcontent : written = content := by
          rcases h.node with hnode | hnode <;> rw [hfile] at hnode <;> cases hnode
          rfl
        rw [hcontent]
        exact .put h.temporary (by simp [hfile]) _
    · cases hreach
  · cases hwrite

/-- Only a file can be brought to the disk. -/
theorem Draft.sync (h : Draft upper written d) (hsync : Disk.perform .sync d = (.ok (), d')) :
    d' = d ∧ d.tree.node? (upper ++ ["keyhold.json.tmp"]) = some (.file written) := by
  simp only [Disk.perform, perform] at hsync
  split at hsync
  · next t hok =>
    cases hsync
    obtain ⟨rfl, hentry⟩ := FileTree.sync_ok hok
    refine ⟨rfl, h.node.resolve_right fun hdevice => hentry ?_⟩
    rw [tempFile, entry_join h.temporary isName_temporary, hdevice]
  · cases hsync

/-- A draft that is renamed is the document. -/
theorem Draft.rename (h : Draft upper written d)
    (hfile : d.tree.node? (upper ++ ["keyhold.json.tmp"]) = some (.file written))
    (hrename : Disk.perform .rename d = (.ok (), d')) :
    Disk.document? d' = some (.ok written) := by
  have hlast : d.dataFile.steps.getLast?.getD "" = "keyhold.json" := by
    simp [dataFile, Path.join]
  simp only [Disk.perform, perform] at hrename
  split at hrename
  · next t hok =>
    cases hrename
    obtain ⟨here, there, node, hreach, hnode, hkind, hplace, hfree, rfl⟩ := FileTree.rename_ok hok
    rw [tempFile, reach_join h.temporary isName_temporary, hfile, Option.isSome_some, if_pos rfl]
      at hreach
    cases hreach
    cases hfile.symm.trans hnode
    obtain ⟨upper', hupper', -, rfl⟩ := FileTree.newPlace_ok.1 hplace
    rw [hlast] at hfree ⊢
    -- The way to the document stays open, because no folder was moved or replaced.
    have hold : d.tree.node? (upper ++ ["keyhold.json.tmp"]) ≠ some .folder := by simp [hfile]
    have hstay := FileTree.foldersStay_move hold hfree (.file written)
    rw [document?_eq (FileTree.reachUpper_of_foldersStay hstay hupper'), FileTree.node?_move,
      if_neg (by simp), if_pos rfl]
  · cases hrename

/-- What was written in pieces is the document, once all steps were performed. -/
theorem Draft.finish (h : Draft upper written d) {pieces : List Bytes}
    (hall : performAll (pieces.map .write ++ [.sync, .rename]) d = (.ok (), d')) :
    Disk.document? d' = some (.ok (written ++ pieces.flatten)) := by
  -- Induction on the pieces, with what was written before kept general.
  induction pieces generalizing written d with
  | nil =>
    obtain ⟨d₁, hsync, hrest⟩ := performAll_cons_ok_iff.1 hall
    obtain ⟨d₂, hrename, hrest⟩ := performAll_cons_ok_iff.1 hrest
    cases hrest
    obtain ⟨rfl, hfile⟩ := h.sync hsync
    rw [List.flatten_nil, List.append_nil]
    exact h.rename hfile hrename
  | cons piece pieces ih =>
    rw [List.map_cons, List.cons_append] at hall
    obtain ⟨d₁, hwrite, hrest⟩ := performAll_cons_ok_iff.1 hall
    rw [List.flatten_cons, ← List.append_assoc]
    exact ih (h.write hwrite) hrest

/-- A folder replaces its document as a whole or not at all. -/
theorem atomic : Atomic Folder where
  kept := keptUntilRename_document?
  replaced d d' pieces h := by
    rw [replacing, List.cons_append] at h
    obtain ⟨d₁, hcreate, hrest⟩ := performAll_cons_ok_iff.1 h
    obtain ⟨upper, hdraft⟩ := draft_of_create hcreate
    simpa using hdraft.finish hrest

end Folder

end Gatehouse.Storage
