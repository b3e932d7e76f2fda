import Gatehouse.Proofs.FileTree
import Gatehouse.Storage.Disk

/-!
# A folder that serves as a disk

Once a document could be put into a folder, every later document can be: the steps that replace it
touch two names in the folder and no folder at all, so all ways stay open. What can go wrong with
files is asked once, of the first replacement in a fresh folder.

## Key results

- `Serves`: what a disk has to do for a storage in a document
- `Folder.Writing.finish`: what is written in pieces is put in place as a whole
- `Folder.UsableAt.replace`: the steps of a replacement put the new document in place
- `Folder.serves`: a folder that holds a document, or none, serves as a disk
- `Folder.Fresh.holds` / `Folder.fresh_of_holds`: a folder is fresh if and only if it can be made
  and then holds no document
-/

namespace Gatehouse.Storage

/-- Steps succeed if the first one does and the others do on what it leaves. -/
theorem performAll_cons_ok_iff {δ : Type} [Disk δ] {s : Step} {ss : List Step} {d d' : δ} :
    performAll (s :: ss) d = (.ok (), d') ↔
      ∃ d₁, Disk.perform s d = (.ok (), d₁) ∧ performAll ss d₁ = (.ok (), d') := by
  rw [performAll]
  cases Disk.perform s d with
  | mk result d₁ => cases result <;> simp

/-- Whether a disk of which something holds does what is asked of it. -/
structure Serves {δ : Type} [Disk δ] (Holds : Option Bytes → δ → Prop) : Prop where
  /-- Preparing it again changes nothing that matters. -/
  prepare : ∀ {doc d}, Holds doc d → ∃ d', Disk.prepare d = (.ok (), d') ∧ Holds doc d'
  /-- The document that it holds is read. -/
  document? : ∀ {doc d}, Holds doc d → Disk.document? d = doc.map .ok
  /-- Another document takes its place. -/
  replace : ∀ {doc d}, Holds doc d → ∀ new,
    ∃ d', performAll (replacing [new]) d = (.ok (), d') ∧ Holds (some new) d'

namespace Folder

open FileTree (FoldersStay IsName)

/-! ### A name in a folder -/

section Names

variable {t : FileTree} {p : Path} {name : String} {upper : Place}

/-- A name in the folder of a path has its place there, whatever stands at it. -/
theorem newPlace_join (h : t.reachUpper (p.join name) = .ok upper) (hname : IsName name)
    (taken : SystemError) : t.newPlace (p.join name) taken = .ok (upper ++ [name]) := by
  have hlast : (p.join name).steps.getLast?.getD "" = name := by simp [Path.join]
  exact FileTree.newPlace_ok.2 ⟨upper, h, hlast.symm ▸ hname, by rw [hlast]⟩

/-- A name in the folder of a path is reached if something stands under it. -/
theorem reach_join (h : t.reachUpper (p.join name) = .ok upper) (hname : IsName name) :
    t.reach (p.join name) =
      if (t.node? (upper ++ [name])).isSome then .ok (upper ++ [name]) else .error .notFound := by
  have hlast : (p.join name).steps.getLast?.getD "" = name := by simp [Path.join]
  rw [FileTree.reach, h, hlast]
  exact FileTree.enter_name hname upper

/-- What stands under a name in the folder of a path is its entry. -/
theorem entry_join (h : t.reachUpper (p.join name) = .ok upper) (hname : IsName name) :
    t.entry (p.join name) =
      match t.node? (upper ++ [name]) with
      | some n => .ok n
      | none => .error .notFound := by
  rw [FileTree.entry, reach_join h hname]
  cases hnode : t.node? (upper ++ [name]) with
  | none => rfl
  | some n => simp [bind, Except.bind, hnode]

/-- A name in the folder of a path exists if something stands under it. -/
theorem exists?_join (h : t.reachUpper (p.join name) = .ok upper) (hname : IsName name) :
    t.exists? (p.join name) = (t.node? (upper ++ [name])).isSome := by
  rw [FileTree.exists?, entry_join h hname]
  cases t.node? (upper ++ [name]) <;> rfl

/-- Where nothing but a file is in the way, a created file is empty. -/
theorem create_join (h : t.reachUpper (p.join name) = .ok upper) (hname : IsName name)
    (hfree : ∀ n, t.node? (upper ++ [name]) = some n → ∃ content, n = .file content) :
    t.create (p.join name) = .ok (t.put (upper ++ [name]) (.file [])) := by
  rw [FileTree.create, newPlace_join h hname]
  cases hnode : t.node? (upper ++ [name]) with
  | none => simp [bind, Except.bind, hnode]
  | some n =>
    obtain ⟨content, rfl⟩ := hfree n hnode
    simp [bind, Except.bind, hnode]

/-- A piece that is appended to a file stands behind what was there. -/
theorem append_join (h : t.reachUpper (p.join name) = .ok upper) (hname : IsName name)
    {content : Bytes} (hfile : t.node? (upper ++ [name]) = some (.file content)) (piece : Bytes) :
    t.append (p.join name) piece = .ok (t.put (upper ++ [name]) (.file (content ++ piece))) := by
  rw [FileTree.append, reach_join h hname, hfile]
  simp [bind, Except.bind, hfile]

/-- A file is brought to the disk without a change to the tree. -/
theorem sync_join (h : t.reachUpper (p.join name) = .ok upper) (hname : IsName name)
    {content : Bytes} (hfile : t.node? (upper ++ [name]) = some (.file content)) :
    t.sync (p.join name) = .ok t := by
  rw [FileTree.sync, entry_join h hname, hfile]

/-- A file is moved within its folder, over all that is no folder. -/
theorem rename_join {new : String} (h : t.reachUpper (p.join name) = .ok upper)
    (hnew : t.reachUpper (p.join new) = .ok upper) (hname : IsName name) (hname' : IsName new)
    {content : Bytes} (hfile : t.node? (upper ++ [name]) = some (.file content))
    (hfree : t.node? (upper ++ [new]) ≠ some .folder) :
    t.rename (p.join name) (p.join new) =
      .ok ⟨(t.nodes.erase (upper ++ [name])).insert (upper ++ [new]) (.file content)⟩ := by
  rw [FileTree.rename, entry_join h hname, reach_join h hname, newPlace_join hnew hname', hfile]
  simp [bind, Except.bind, hfree]

/-- A path with a name behind it is absolute if it was so before. -/
theorem isAbsolute_join (p : Path) {name : String} (h : name ≠ "") :
    (p.join name).isAbsolute = decide (p.openSteps.head? = some "") := by
  rw [Path.isAbsolute, Path.isEmpty, Path.join]
  cases p.openSteps with
  | nil => simp [h]
  | cons step steps => simp

/-- All names of one folder are seen from the same place. -/
theorem reachUpper_join {new : String} (h : t.reachUpper (p.join name) = .ok upper)
    (hname : IsName name) (hnew : IsName new)
    (hobjection : FileTree.objection? (p.join new) = none) :
    t.reachUpper (p.join new) = .ok upper := by
  have hdrop : ∀ s : String, (p.join s).steps.dropLast = p.openSteps := fun s => by
    simp [Path.join]
  -- Both ways begin at the same place and go up to the last step together.
  have hstart : (p.join new).start = (p.join name).start := by
    rw [Path.start, Path.start, isAbsolute_join p hnew.1, isAbsolute_join p hname.1]
    rfl
  rw [FileTree.reachUpper_ok, hdrop, hstart, ← hdrop name]
  exact ⟨hobjection, (FileTree.reachUpper_ok.1 h).2⟩

end Names

/-! ### The document and the temporary file -/

/-- The document has a proper name. -/
theorem isName_document : IsName "keyhold.json" := by
  refine ⟨by decide, by decide, by decide, by decide⟩

/-- The temporary file has a proper name. -/
theorem isName_temporary : IsName "keyhold.json.tmp" := by
  refine ⟨by decide, by decide, by decide, by decide⟩

/-- Whether a folder at a place holds a document, or none, and is in order apart from that. -/
structure HoldsAt (upper : Place) (doc : Option Bytes) (d : Folder) : Prop where
  /-- The folder is there, unless its path is empty and it needs not be made. -/
  there : d.path.isEmpty = true ∨ d.tree.isFolder d.path = true
  temporary : d.tree.reachUpper d.tempFile = .ok upper
  document : d.tree.reachUpper d.dataFile = .ok upper
  vacant : d.tree.node? (upper ++ ["keyhold.json.tmp"]) = none
  content : d.tree.node? (upper ++ ["keyhold.json"]) = doc.map .file

/-- Whether a folder holds a document, or none. -/
def Holds (doc : Option Bytes) (d : Folder) : Prop := ∃ upper, HoldsAt upper doc d

/-- A folder that is there is prepared already. -/
theorem prepare_of_holds {doc : Option Bytes} {d : Folder} (h : Holds doc d) :
    Disk.prepare d = (.ok (), d) := by
  obtain ⟨upper, h⟩ := h
  simp only [Disk.prepare, FileTree.makeFolders_of_isFolder h.there]

/-- The document that a folder holds is read. -/
theorem document?_of_holds {doc : Option Bytes} {d : Folder} (h : Holds doc d) :
    Disk.document? d = doc.map .ok := by
  obtain ⟨upper, h⟩ := h
  have hexists := exists?_join h.document isName_document
  have hentry := entry_join h.document isName_document
  rw [h.content] at hexists hentry
  simp only [Disk.document?, dataFile, hexists, FileTree.read, hentry]
  cases doc <;> rfl

/-! ### Replacing the document -/

/-- Whether a folder at a place is there and both of its names are seen. -/
structure InOrder (upper : Place) (d : Folder) : Prop where
  there : d.path.isEmpty = true ∨ d.tree.isFolder d.path = true
  temporary : d.tree.reachUpper d.tempFile = .ok upper
  document : d.tree.reachUpper d.dataFile = .ok upper

/-- Whether a folder at a place is there, and nothing but files stands in the way of a temporary
    file and a document. -/
structure UsableAt (upper : Place) (d : Folder) : Prop where
  inOrder : InOrder upper d
  temporary : ∀ n, d.tree.node? (upper ++ ["keyhold.json.tmp"]) = some n →
    ∃ content, n = .file content
  document : d.tree.node? (upper ++ ["keyhold.json"]) ≠ some .folder

/-- Nothing stands in the way of another document where one is held. -/
theorem HoldsAt.usableAt {upper : Place} {doc : Option Bytes} {d : Folder}
    (h : HoldsAt upper doc d) : UsableAt upper d where
  inOrder := ⟨h.there, h.temporary, h.document⟩
  temporary n hn := by
    rw [h.vacant] at hn
    cases hn
  document := by
    rw [h.content]
    cases doc <;> simp

/-- Whether a document is being written to the temporary file. -/
structure Writing (upper : Place) (written : Bytes) (d : Folder) : Prop where
  inOrder : InOrder upper d
  file : d.tree.node? (upper ++ ["keyhold.json.tmp"]) = some (.file written)
  document : d.tree.node? (upper ++ ["keyhold.json"]) ≠ some .folder

section Replacing

variable {upper : Place} {doc : Option Bytes} {written : Bytes} {d : Folder}

/-- The ways stay open as long as the folders stay. -/
theorem InOrder.of_foldersStay (h : InOrder upper d) {t : FileTree} (hstay : FoldersStay d.tree t) :
    InOrder upper { d with tree := t } where
  there := h.there.imp_right (FileTree.isFolder_of_foldersStay hstay)
  temporary := FileTree.reachUpper_of_foldersStay hstay h.temporary
  document := FileTree.reachUpper_of_foldersStay hstay h.document

/-- The document is not the temporary file. -/
private theorem document_ne_temporary (upper : Place) :
    upper ++ ["keyhold.json"] ≠ upper ++ ["keyhold.json.tmp"] := by
  simp

/-- What stands in a folder is not the root. -/
private theorem snoc_ne_nil (upper : Place) (name : String) : upper ++ [name] ≠ [] := by
  simp

/-- Once the temporary file is there with some contents, the document is being written. -/
theorem Writing.put (h : InOrder upper d)
    (hfree : d.tree.node? (upper ++ ["keyhold.json.tmp"]) ≠ some .folder)
    (hdocument : d.tree.node? (upper ++ ["keyhold.json"]) ≠ some .folder) (written : Bytes) :
    Writing upper written
      { d with tree := d.tree.put (upper ++ ["keyhold.json.tmp"]) (.file written) } where
  inOrder := h.of_foldersStay (FileTree.foldersStay_put hfree _)
  file := by rw [FileTree.node?_put, if_neg (snoc_ne_nil _ _), if_pos rfl]
  document := by rwa [FileTree.node?_put_of_ne _ _ (document_ne_temporary upper)]

/-- A folder in which a document is being written can be used: another one may be begun. -/
theorem Writing.usableAt (h : Writing upper written d) : UsableAt upper d where
  inOrder := h.inOrder
  temporary _ hn := ⟨written, Option.some.inj (hn.symm.trans h.file)⟩
  document := h.document

/-- The temporary file is no folder. -/
theorem UsableAt.free (h : UsableAt upper d) :
    d.tree.node? (upper ++ ["keyhold.json.tmp"]) ≠ some .folder := by
  intro hfolder
  obtain ⟨content, hfile⟩ := h.temporary _ hfolder
  cases hfile

/-- Creation empties the temporary file, whatever a crash left in it. -/
theorem UsableAt.create (h : UsableAt upper d) :
    ∃ d', Disk.perform .create d = (.ok (), d') ∧ Writing upper [] d' := by
  have hcreate := create_join h.inOrder.temporary isName_temporary h.temporary
  refine ⟨_, ?_, .put h.inOrder h.free h.document []⟩
  simp only [Disk.perform, perform, tempFile, hcreate]

/-- A piece is written behind those before it. -/
theorem Writing.write (h : Writing upper written d) (piece : Bytes) :
    ∃ d', Disk.perform (.write piece) d = (.ok (), d') ∧ Writing upper (written ++ piece) d' := by
  have happend := append_join h.inOrder.temporary isName_temporary h.file piece
  refine ⟨_, ?_, .put h.inOrder h.usableAt.free h.document _⟩
  simp only [Disk.perform, perform, tempFile, happend]

/-- A sync finds the temporary file and changes nothing. -/
theorem Writing.sync (h : Writing upper written d) :
    Disk.perform .sync d = (.ok (), d) := by
  have hsync := sync_join h.inOrder.temporary isName_temporary h.file
  simp only [Disk.perform, perform, tempFile, hsync]

/-- What was written takes the place of the document that there was. -/
theorem Writing.rename (h : Writing upper written d) :
    ∃ d', Disk.perform .rename d = (.ok (), d') ∧ HoldsAt upper (some written) d' := by
  have hrename := rename_join h.inOrder.temporary h.inOrder.document isName_temporary
    isName_document h.file h.document
  have hstay := FileTree.foldersStay_move h.usableAt.free h.document (.file written)
  obtain ⟨hthere, htemporary, hdocument⟩ := h.inOrder.of_foldersStay hstay
  refine ⟨_, ?_, hthere, htemporary, hdocument, ?_, ?_⟩
  · simp only [Disk.perform, perform, tempFile, dataFile, hrename]
  · rw [FileTree.node?_move, if_neg (snoc_ne_nil _ _), if_neg (document_ne_temporary upper).symm,
      if_pos rfl]
  · rw [FileTree.node?_move, if_neg (snoc_ne_nil _ _), if_pos rfl]
    rfl

/-- The pieces are written one behind the other, and all of them are put in place. -/
theorem Writing.finish (h : Writing upper written d) (pieces : List Bytes) :
    ∃ d', performAll (pieces.map .write ++ [.sync, .rename]) d = (.ok (), d') ∧
      HoldsAt upper (some (written ++ pieces.flatten)) d' := by
  induction pieces generalizing written d with
  | nil =>
    obtain ⟨d', hrename, h'⟩ := h.rename
    refine ⟨d', ?_, by rwa [List.flatten_nil, List.append_nil]⟩
    rw [List.map_nil, List.nil_append]
    exact performAll_cons_ok_iff.2 ⟨d, h.sync, performAll_cons_ok_iff.2 ⟨d', hrename, rfl⟩⟩
  | cons piece pieces ih =>
    obtain ⟨d₁, hwrite, h₁⟩ := h.write piece
    obtain ⟨d', hrest, h'⟩ := ih h₁
    refine ⟨d', ?_, by rwa [List.flatten_cons, ← List.append_assoc]⟩
    rw [List.map_cons, List.cons_append]
    exact performAll_cons_ok_iff.2 ⟨d₁, hwrite, hrest⟩

/-- The steps of a replacement put the new document in place. -/
theorem UsableAt.replace (h : UsableAt upper d) (pieces : List Bytes) :
    ∃ d', performAll (replacing pieces) d = (.ok (), d') ∧
      HoldsAt upper (some pieces.flatten) d' := by
  obtain ⟨d₁, hcreate, h₁⟩ := h.create
  obtain ⟨d', hfinish, h'⟩ := h₁.finish pieces
  refine ⟨d', ?_, h'⟩
  unfold replacing
  rw [List.cons_append]
  exact performAll_cons_ok_iff.2 ⟨d₁, hcreate, hfinish⟩

/-- A folder that holds a document lets another one take its place, in any pieces. -/
theorem replace_of_holds (h : Holds doc d) (pieces : List Bytes) :
    ∃ d', performAll (replacing pieces) d = (.ok (), d') ∧ Holds (some pieces.flatten) d' := by
  obtain ⟨upper, h⟩ := h
  obtain ⟨d', hreplace, h'⟩ := h.usableAt.replace pieces
  exact ⟨d', hreplace, upper, h'⟩

end Replacing

/-- Folders do what is asked of a disk. -/
theorem serves : Serves Holds where
  prepare h := ⟨_, prepare_of_holds h, h⟩
  document? h := document?_of_holds h
  replace h new := by simpa using replace_of_holds h [new]

/-! ### A fresh folder -/

/-- A folder that can be made, in which nothing stands under the two names, and in which a document
    can be replaced. -/
structure Fresh (d : Folder) : Prop where
  prepared : (Disk.prepare d).1 = .ok ()
  noDocument : Disk.document? (Disk.prepare d).2 = none
  noTemporary : (Disk.prepare d).2.tree.exists? d.tempFile = false
  replaced : (performAll (replacing [[]]) (Disk.prepare d).2).1 = .ok ()

/-- No step leads to another folder. -/
theorem path_of_perform {s : Step} {d d' : Folder} {r : Except SystemError Unit}
    (h : Disk.perform s d = (r, d')) : d'.path = d.path := by
  simp only [Disk.perform, perform] at h
  split at h <;> cases h <;> rfl

/-- A file can be created only in a folder that is reached. -/
theorem reachUpper_of_create {d d' : Folder} (h : Disk.perform .create d = (.ok (), d')) :
    ∃ upper, d.tree.reachUpper d.tempFile = .ok upper := by
  simp only [Disk.perform, perform] at h
  split at h
  · next t hcreate =>
    obtain ⟨here, hplace, -⟩ := FileTree.create_ok hcreate
    obtain ⟨upper, hupper, -⟩ := FileTree.newPlace_ok.1 hplace
    exact ⟨upper, hupper⟩
  · cases h

/-- A file can be renamed only to a path to which nothing is objected. -/
theorem objection?_of_rename {d d' : Folder} (h : Disk.perform .rename d = (.ok (), d')) :
    FileTree.objection? d.dataFile = none := by
  simp only [Disk.perform, perform] at h
  split at h
  · next t hrename =>
    obtain ⟨here, there, node, -, -, -, hplace, -, -⟩ := FileTree.rename_ok hrename
    obtain ⟨upper, hupper, -⟩ := FileTree.newPlace_ok.1 hplace
    exact (FileTree.reachUpper_ok.1 hupper).1
  · cases h

/-- A folder is prepared at its own path. -/
theorem path_prepare (d : Folder) : (Disk.prepare d).2.path = d.path := rfl

/-- A first replacement tells where the two names are seen from. -/
theorem reachUpper_of_replaced {d : Folder} (h : (performAll (replacing [[]]) d).1 = .ok ()) :
    ∃ upper, d.tree.reachUpper d.tempFile = .ok upper ∧
      d.tree.reachUpper d.dataFile = .ok upper := by
  have hall : performAll (replacing [[]]) d = (.ok (), (performAll (replacing [[]]) d).2) :=
    Prod.ext h rfl
  obtain ⟨d₁, hcreate, hrest⟩ := performAll_cons_ok_iff.1 hall
  obtain ⟨d₂, hwrite, hrest⟩ := performAll_cons_ok_iff.1 hrest
  obtain ⟨d₃, hsync, hrest⟩ := performAll_cons_ok_iff.1 hrest
  obtain ⟨d₄, hrename, -⟩ := performAll_cons_ok_iff.1 hrest
  obtain ⟨upper, hupper⟩ := reachUpper_of_create hcreate
  -- The document is looked for at the same path before and after the other steps.
  have hpath : d₃.path = d.path := by
    rw [path_of_perform hsync, path_of_perform hwrite, path_of_perform hcreate]
  have hobjection := objection?_of_rename hrename
  rw [dataFile, hpath] at hobjection
  exact ⟨upper, hupper, reachUpper_join hupper isName_temporary isName_document hobjection⟩

/-- A folder that can be made and holds no document is fresh. -/
theorem fresh_of_holds {d d' : Folder} (hmade : Disk.prepare d = (.ok (), d'))
    (h : Holds none d') : d.Fresh := by
  have hpath : d'.path = d.path := by rw [← path_prepare d, hmade]
  obtain ⟨d'', hreplaced, -⟩ := replace_of_holds h [[]]
  have hdocument := document?_of_holds h
  obtain ⟨upper, h⟩ := h
  have htemporary := exists?_join h.temporary isName_temporary
  rw [h.vacant, Option.isSome_none, hpath] at htemporary
  constructor
  · rw [hmade]
  · rw [hmade]
    exact hdocument
  · rw [hmade]
    exact htemporary
  · rw [hmade, hreplaced]

/-- A fresh folder, once it is made, holds no document. -/
theorem Fresh.holds {d : Folder} (h : Fresh d) :
    ∃ d', Disk.prepare d = (.ok (), d') ∧ Holds none d' := by
  obtain ⟨hprepared, hdocument, htemporary, hreplaced⟩ := h
  cases hmade : Disk.prepare d with
  | mk result d' =>
    rw [hmade] at hprepared hdocument htemporary hreplaced
    dsimp only at hprepared hdocument htemporary hreplaced
    subst hprepared
    have hpath : d'.path = d.path := by rw [← path_prepare d, hmade]
    -- The folder that was made is reached by its path from now on.
    have hthere : d'.path.isEmpty = true ∨ d'.tree.isFolder d'.path = true := by
      rw [hpath]
      refine FileTree.isFolder_of_makeFolders (t := d.tree) ?_
      simp only [Disk.prepare, Prod.mk.injEq] at hmade
      rw [← hmade.2]
      exact Prod.ext hmade.1 rfl
    obtain ⟨upper, hupper, hupper'⟩ := reachUpper_of_replaced hreplaced
    have hexists := exists?_join hupper' isName_document
    have hexists' := exists?_join hupper isName_temporary
    refine ⟨d', rfl, upper, hthere, hupper, hupper', ?_, ?_⟩
    · rw [← Option.not_isSome_iff_eq_none, ← hexists']
      rw [tempFile, ← hpath] at htemporary
      rw [htemporary]
      exact Bool.false_ne_true
    · have hnone : d'.tree.exists? d'.dataFile = false := by
        simp only [Disk.document?] at hdocument
        split at hdocument
        · cases hdocument
        · next hfalse => exact Bool.eq_false_iff.2 hfalse
      rw [Option.map_none, ← Option.not_isSome_iff_eq_none, ← hexists]
      rw [dataFile] at hnone
      rw [hnone]
      exact Bool.false_ne_true

end Folder

end Gatehouse.Storage
