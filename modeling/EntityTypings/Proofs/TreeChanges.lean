import EntityTypings.Command.Generate
import EntityTypings.Files.Tree
import Mathlib.Order.Defs.Unbundled

/-!
# What computations do to a file tree

A computation on a file tree gives an answer and a tree (`answer`, `treeAfter`). Most of those here
leave the tree as it is, and making directories adds directories and nothing else
(`OnlyDirectoriesAdded`). Both are relations between the tree before and the tree after that hold
of a computation if they hold of its steps (`Changes.bind`), so the functions that use files are
gone through once, step by step: loading settings and fetching responses leave the tree as it is
(`readsOnly_load`, `readsOnly_fetch`), and `changes_createDirectories` is about directories.
-/

namespace EntityTypings

namespace FileTree

/-! ### Trees with more directories -/

/-- A tree has the same files as another and all its directories, and may have more of these. -/
structure OnlyDirectoriesAdded (t t' : FileTree) : Prop where
  /-- The working directory is the same. -/
  workingPlace : t'.workingPlace = t.workingPlace
  /-- The files are the same. -/
  files : ∀ place contents,
    t'.get? place = some (.file contents) ↔ t.get? place = some (.file contents)
  /-- The directories are still there. -/
  directories : ∀ place, t.get? place = some .directory → t'.get? place = some .directory

namespace OnlyDirectoriesAdded

theorem refl (t : FileTree) : OnlyDirectoriesAdded t t :=
  ⟨rfl, fun _ _ => Iff.rfl, fun _ h => h⟩

theorem trans {t t' t'' : FileTree} (h : OnlyDirectoriesAdded t t')
    (h' : OnlyDirectoriesAdded t' t'') : OnlyDirectoriesAdded t t'' where
  workingPlace := h'.workingPlace.trans h.workingPlace
  files place contents := (h'.files place contents).trans (h.files place contents)
  directories place hd := h'.directories place (h.directories place hd)

instance : IsPreorder FileTree OnlyDirectoriesAdded where
  refl := refl
  trans _ _ _ := trans

end OnlyDirectoriesAdded

/-- A directory that is made is all that changes. -/
theorem onlyDirectoriesAdded_of_makeDirectory {t t' : FileTree} {path : String}
    (h : t.makeDirectory path = .ok t') : OnlyDirectoriesAdded t t' := by
  unfold makeDirectory at h
  cases hlast : t.lastStep path with
  | error e => simp [hlast, bind, Except.bind] at h
  | ok last =>
    cases hplace : t.follow last.place last.segment with
    | error e => simp [hlast, hplace, bind, Except.bind] at h
    | ok place =>
      simp only [hlast, hplace, bind, Except.bind] at h
      split at h
      · cases h
      · rename_i hnone
        cases h
        have hne : place ≠ [] := by
          rintro rfl
          simp [get?] at hnone
        refine ⟨rfl, fun other contents => ?_, fun other hother => ?_⟩
        · by_cases hother : other = place
          · subst hother
            rw [get?_put_self t _ hne, hnone]
            simp
          · rw [get?_put_of_ne t _ hother]
        · by_cases heq : other = place
          · subst heq
            rw [get?_put_self t _ hne]
          · rw [get?_put_of_ne t _ heq, hother]

/-! ### Trees with a written file -/

/-- A tree differs from another at the place to which a path leads in it, and in having more
directories, at most. -/
structure OnlyFileWritten (path : String) (t t' : FileTree) : Prop where
  /-- The working directory is the same. -/
  workingPlace : t'.workingPlace = t.workingPlace
  /-- The files at other places are the same. -/
  files : ∀ place, t'.locate path ≠ .ok place → ∀ contents,
    t'.get? place = some (.file contents) ↔ t.get? place = some (.file contents)
  /-- The directories are still there. -/
  directories : ∀ place, t.get? place = some .directory → t'.get? place = some .directory

/-- Writing a file after making directories changes nothing else. -/
theorem onlyFileWritten_of_write {t made t' : FileTree} {path : String} {contents : ByteArray}
    (hmade : OnlyDirectoriesAdded t made) (h : made.write path contents = .ok t') :
    OnlyFileWritten path t t' := by
  obtain ⟨place, hlocate, hne, hdirectory, rfl⟩ := exists_locate_of_write h
  refine ⟨hmade.workingPlace, fun other hother contents => ?_, fun other hother => ?_⟩
  · have hplace : other ≠ place := fun heq => hother (heq ▸ hlocate)
    rw [get?_put_of_ne made _ hplace, hmade.files]
  · have hthere := hmade.directories other hother
    have hplace : other ≠ place := fun heq => hdirectory (heq ▸ hthere)
    rw [get?_put_of_ne made _ hplace, hthere]

/-! ### Computations -/

namespace Run

variable {α β : Type}

/-- What a computation on a tree gives. -/
def answer (x : Run α) (t : FileTree) : α := (x.run t).1

/-- The tree after a computation. -/
def treeAfter (x : Run α) (t : FileTree) : FileTree := (x.run t).2

/-- Trees before and after the computation are related by `R`. -/
def Changes (R : FileTree → FileTree → Prop) (x : Run α) : Prop := ∀ t, R t (x.treeAfter t)

/-- The computation leaves the tree as it is. -/
abbrev ReadsOnly (x : Run α) : Prop := Changes (· = ·) x

theorem ReadsOnly.treeAfter {x : Run α} (h : x.ReadsOnly) (t : FileTree) : x.treeAfter t = t :=
  (h t).symm

/-- A computation followed by another answers what the other does on the tree that is left. -/
theorem answer_bind (x : Run α) (f : α → Run β) (t : FileTree) :
    (x >>= f).answer t = (f (x.answer t)).answer (x.treeAfter t) := rfl

theorem treeAfter_bind (x : Run α) (f : α → Run β) (t : FileTree) :
    (x >>= f).treeAfter t = (f (x.answer t)).treeAfter (x.treeAfter t) := rfl

variable {R : FileTree → FileTree → Prop} [IsPreorder FileTree R]

theorem changes_pure (a : α) : Changes R (pure a : Run α) := fun t => refl_of R t

theorem Changes.bind {x : Run α} {f : α → Run β} (hx : Changes R x) (hf : ∀ a, Changes R (f a)) :
    Changes R (x >>= f) := by
  intro t
  rw [treeAfter_bind]
  exact trans_of R (hx t) (hf (x.answer t) (x.treeAfter t))

/-- A computation that leaves the tree as it is makes no other change. -/
theorem ReadsOnly.changes {x : Run α} (h : x.ReadsOnly) : Changes R x := by
  intro t
  rw [h.treeAfter t]
  exact refl_of R t

/-- After a computation that leaves the tree as it is, the next one starts from the same tree. -/
theorem ReadsOnly.run_bind {x : Run α} (h : x.ReadsOnly) (f : α → Run β) (t : FileTree) :
    (x >>= f).run t = (f (x.answer t)).run t := by
  show (f (x.answer t)).run (x.treeAfter t) = _
  rw [h.treeAfter t]

/-! ### Reading -/

theorem readsOnly_read (path : String) :
    ReadsOnly (FileAccess.read path : Run (Except FileError ByteArray)) := fun _ => rfl

theorem readsOnly_kind? (path : String) :
    ReadsOnly (FileAccess.kind? path : Run (Option FileKind)) := fun _ => rfl

theorem readsOnly_readText (path : String) :
    ReadsOnly (FileAccess.readText path : Run (Except FileError String)) := by
  refine (readsOnly_read path).bind fun outcome => ?_
  split
  · exact changes_pure _
  · split <;> exact changes_pure _

theorem readsOnly_isFile (path : String) : ReadsOnly (FileAccess.isFile path : Run Bool) :=
  (readsOnly_kind? path).bind fun _ => changes_pure _

theorem readsOnly_pathExists (path : String) : ReadsOnly (FileAccess.pathExists path : Run Bool) :=
  (readsOnly_kind? path).bind fun _ => changes_pure _

theorem readsOnly_isDirectory (path : String) :
    ReadsOnly (FileAccess.isDirectory path : Run Bool) :=
  (readsOnly_kind? path).bind fun _ => changes_pure _

/-! ### Changing -/

/-- A change takes place if it succeeds, and otherwise the tree stays as it is. -/
theorem run_change (f : FileTree → Except FileError FileTree) (t : FileTree) :
    (change f).run t =
      match f t with
      | .error e => (.error e, t)
      | .ok t' => (.ok (), t') := by
  cases h : f t <;> simp only [change, StateT.run_bind, StateT.run_get, pure_bind, h] <;> rfl

theorem changes_change {f : FileTree → Except FileError FileTree}
    (h : ∀ t t', f t = .ok t' → R t t') : Changes R (change f) := by
  intro t
  rw [treeAfter, run_change]
  cases hf : f t with
  | error e => exact refl_of R t
  | ok t' => exact h t t' hf

theorem changes_makeDirectory (path : String) :
    Changes OnlyDirectoriesAdded (FileAccess.makeDirectory path : Run (Except FileError Unit)) :=
  changes_change fun _ _ => onlyDirectoriesAdded_of_makeDirectory

theorem readsOnly_settled (path : String) (outcome : Except FileError Unit) :
    ReadsOnly (FileAccess.settled path outcome : Run (Except FileError Unit)) := by
  cases outcome with
  | ok _ => exact changes_pure _
  | error e => exact (readsOnly_isDirectory path).bind fun _ => changes_pure _

/-- Making a directory after those on the way makes directories only. -/
theorem changes_createAfter (path : String) (ways : List String) :
    Changes OnlyDirectoriesAdded
      (FileAccess.createAfter path ways : Run (Except FileError Unit)) := by
  have hsettled (path : String) (outcome : Except FileError Unit) :
      Changes OnlyDirectoriesAdded
        (FileAccess.settled path outcome : Run (Except FileError Unit)) :=
    (readsOnly_settled path outcome).changes
  induction ways generalizing path with
  | nil => exact (changes_makeDirectory path).bind fun _ => hsettled path _
  | cons way ways ih =>
    refine (changes_makeDirectory path).bind fun outcome => ?_
    split
    · refine (ih way).bind fun made => ?_
      split
      · exact changes_pure _
      · exact (changes_makeDirectory path).bind fun _ => hsettled path _
    · exact hsettled path _

theorem changes_createDirectories (path : String) :
    Changes OnlyDirectoriesAdded
      (FileAccess.createDirectories path : Run (Except FileError Unit)) := by
  unfold FileAccess.createDirectories
  split
  · exact changes_pure _
  · exact changes_createAfter path _

end Run

end FileTree

open FileTree.Run

/-! ### Loading settings -/

namespace Settings

theorem readsOnly_firstFile (paths : List (String × String)) :
    ReadsOnly (firstFile paths : FileTree.Run (Option (String × String))) := by
  induction paths with
  | nil => exact changes_pure _
  | cons p rest ih =>
    refine (readsOnly_isFile p.1).bind fun found => ?_
    split
    · exact changes_pure _
    · exact ih

/-- Readings in order leave the tree as it is if each of them does. -/
theorem readsOnly_inOrder {readings : List (FileTree.Run (Except SettingsFault Layer))}
    (h : ∀ reading ∈ readings, ReadsOnly reading) : ReadsOnly (inOrder readings) := by
  induction readings with
  | nil => exact changes_pure _
  | cons reading rest ih =>
    refine (h reading List.mem_cons_self).bind fun layer => ?_
    split
    · exact changes_pure _
    · exact (ih fun r hr => h r (List.mem_cons_of_mem _ hr)).bind fun _ => changes_pure _

variable [Layer.Formats]

theorem readsOnly_findFile (name : String) :
    ReadsOnly (findFile name : FileTree.Run (Except SettingsFault (String × String))) := by
  refine (readsOnly_isFile name).bind fun found => ?_
  split
  · exact changes_pure _
  · exact (readsOnly_firstFile _).bind fun _ => changes_pure _

theorem readsOnly_readNamed (name : String) :
    ReadsOnly (readNamed name :
      FileTree.Run (Except SettingsFault (String × String × String))) := by
  refine (readsOnly_findFile name).bind fun found => ?_
  split
  · exact changes_pure _
  · refine (readsOnly_readText _).bind fun text => ?_
    split <;> exact changes_pure _

theorem readsOnly_requiredLayer (name : String) :
    ReadsOnly (requiredLayer name : FileTree.Run (Except SettingsFault Layer)) := by
  refine (readsOnly_readNamed name).bind fun text => ?_
  split <;> exact changes_pure _

theorem readsOnly_optionalLayer (name : String) :
    ReadsOnly (optionalLayer name : FileTree.Run (Except SettingsFault Layer)) := by
  refine (readsOnly_readNamed name).bind fun text => ?_
  split <;> exact changes_pure _

theorem readsOnly_userLayer (path : String) :
    ReadsOnly (userLayer path : FileTree.Run (Except SettingsFault Layer)) := by
  refine (readsOnly_pathExists path).bind fun there => ?_
  split
  · exact readsOnly_optionalLayer path
  · exact changes_pure _

theorem readsOnly_fileLayers (sources : Sources) :
    ReadsOnly (fileLayers sources : FileTree.Run (Except SettingsFault (List Layer))) := by
  refine readsOnly_inOrder fun reading hreading => ?_
  simp only [List.mem_append, List.mem_map] at hreading
  rcases hreading with (⟨name, -, rfl⟩ | ⟨path, -, rfl⟩) | ⟨name, -, rfl⟩
  · exact readsOnly_optionalLayer name
  · exact readsOnly_userLayer path
  · exact readsOnly_requiredLayer name

theorem readsOnly_load (sources : Sources) :
    ReadsOnly (load sources : FileTree.Run (Except SettingsFault Settings)) := by
  refine (readsOnly_fileLayers sources).bind fun layers => ?_
  split <;> exact changes_pure _

end Settings

theorem GenerateCommand.readsOnly_effectiveSettings [Layer.Formats] (world : Surroundings)
    (g : Arguments.Given) :
    ReadsOnly (effectiveSettings world g : FileTree.Run (Except SettingsFault Settings)) :=
  (Settings.readsOnly_load _).bind fun _ => changes_pure _

/-! ### Fetching responses -/

namespace Response

theorem readsOnly_readRecords {α : Type} (read : Json → Option α) (path : String) :
    ReadsOnly (readRecords read path : FileTree.Run (Except Failure (List α))) :=
  (readsOnly_readText path).bind fun _ => changes_pure _

theorem readsOnly_fetch (schemasPath : String) (configurationsPath : Option String) :
    ReadsOnly (fetch schemasPath configurationsPath :
      FileTree.Run (Except Failure Snapshot)) := by
  refine (readsOnly_readRecords _ schemasPath).bind fun schemas => ?_
  split
  · exact changes_pure _
  · split
    · exact changes_pure _
    · refine (readsOnly_readRecords _ _).bind fun configurations => ?_
      split <;> exact changes_pure _

end Response

end EntityTypings
