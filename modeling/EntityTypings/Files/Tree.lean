import EntityTypings.Files.Access

/-!
# File trees

A file tree in memory: directories and files by the names that lead to them from
the top, and the working directory, from which paths start unless they start at
the top. Paths are followed segment by segment, and every segment has to be
reached in a directory, also one that stays there. Above the top is the top.

The main statement is that writing puts the contents where reading finds them
(`read_write`).
-/

namespace EntityTypings

/-- What can stand at a place of a file tree. -/
inductive FileEntry where
  /-- A file with its contents. -/
  | file (contents : ByteArray)
  /-- A directory. -/
  | directory

/-- What kind of thing an entry is. -/
def FileEntry.kind : FileEntry → FileKind
  | .file _ => .file
  | .directory => .directory

/-- A file tree, as its entries by the names that lead to them from the top. -/
structure FileTree where
  /-- The entries other than the top itself; of two for one place the first counts. -/
  entries : List (List String × FileEntry)
  /-- The place of the working directory. -/
  workingPlace : List String

namespace FileTree

/-- The tree with nothing in it; the top is the working directory. -/
def empty : FileTree := ⟨[], []⟩

/-- The entry at a place; the top is a directory. -/
def get? (t : FileTree) (place : List String) : Option FileEntry :=
  if place = [] then some .directory else t.entries.lookup place

/-- The tree with an entry put at a place. -/
def put (t : FileTree) (place : List String) (e : FileEntry) : FileTree :=
  { t with entries := (place, e) :: t.entries.filter (fun p => p.1 ≠ place) }

/-- What is put at a place is found there. -/
@[simp] theorem get?_put_self (t : FileTree) {place : List String} (e : FileEntry)
    (h : place ≠ []) : (t.put place e).get? place = some e := by
  simp [get?, put, h]

/-- Nothing changes at other places. -/
theorem get?_put_of_ne (t : FileTree) {place other : List String} (e : FileEntry)
    (h : other ≠ place) : (t.put place e).get? other = t.get? other := by
  have hne : (other == place) = false := by simpa using h
  have hlook : ∀ es : List (List String × FileEntry),
      (es.filter (fun p => p.1 ≠ place)).lookup other = es.lookup other := by
    intro es
    induction es with
    | nil => rfl
    | cons p es ih =>
      obtain ⟨k, v⟩ := p
      by_cases hk : k = place
      · subst hk
        simpa [List.lookup_cons, hne] using ih
      · simp only [ne_eq, hk, not_false_eq_true, decide_true, List.filter_cons_of_pos,
          List.lookup_cons]
        split
        · rfl
        · simpa using ih
  unfold get? put
  split
  · rfl
  · simpa [List.lookup_cons, hne] using hlook t.entries

/-! ### Following paths -/

/-- The longest name that a file can have, in bytes. -/
def maxNameBytes : Nat := 255

/-- The longest path that can be followed, in bytes. -/
def maxPathBytes : Nat := 4095

/-- The place that a segment leads to from a place. -/
def follow (t : FileTree) (place : List String) (segment : String) :
    Except FileError (List String) :=
  match t.get? place with
  | none => .error .notFound
  | some (.file _) => .error .notADirectory
  | some .directory =>
    if Path.isIdle segment then .ok place
    else if segment = ".." then .ok place.dropLast
    else if maxNameBytes < segment.utf8ByteSize then .error .nameTooLong
    else .ok (place ++ [segment])

/-- The segments of a path that can be followed. -/
def route (path : String) : Except FileError (List String) :=
  if path.toList.contains '\x00' then .error .interiorNul
  else if path = "" then .error .notFound
  else if maxPathBytes < path.utf8ByteSize then .error .nameTooLong
  else .ok (Path.segments path)

/-- The place from which a path is followed. -/
def start (t : FileTree) (path : String) : List String :=
  if Path.isAbsolute path then [] else t.workingPlace

/-- The place that a path leads to. -/
def locate (t : FileTree) (path : String) : Except FileError (List String) := do
  (← route path).foldlM t.follow (t.start path)

/-- The last step of a path. -/
structure LastStep where
  /-- The place from which it is taken. -/
  place : List String
  /-- The segment that it follows. -/
  segment : String
  /-- Whether slashes come after the segment. -/
  slashed : Bool

/-- The last step of a path, with all steps before it taken. Trailing slashes are
no steps; a path of slashes alone stays where it starts. -/
def lastStep (t : FileTree) (path : String) : Except FileError LastStep := do
  let parts := (← route path).reverse
  let proper := parts.dropWhile (fun s => s = "")
  match proper with
  | [] => return ⟨t.start path, "", true⟩
  | last :: before =>
    let place ← before.reverse.foldlM t.follow (t.start path)
    return ⟨place, last, proper.length < parts.length⟩

/-- Whether a step can only lead to a directory. -/
def LastStep.leadsToDirectory (l : LastStep) : Bool :=
  l.slashed || Path.isIdle l.segment || l.segment = ".."

/-! ### Operations -/

/-- What a path leads to, if anything. -/
def kind? (t : FileTree) (path : String) : Option FileKind :=
  match t.locate path with
  | .ok place => (t.get? place).map FileEntry.kind
  | .error _ => none

/-- The contents of the file that a path leads to. -/
def read (t : FileTree) (path : String) : Except FileError ByteArray := do
  match t.get? (← t.locate path) with
  | none => .error .notFound
  | some .directory => .error .isADirectory
  | some (.file contents) => .ok contents

/-- The tree with contents put into the file that a path leads to. A last step
that can only lead to a directory is not taken: what it is taken from has to be
a directory, and its name may be of any length. -/
def write (t : FileTree) (path : String) (contents : ByteArray) : Except FileError FileTree := do
  let last ← t.lastStep path
  if last.leadsToDirectory then
    let _ ← t.follow last.place ""
    .error .isADirectory
  else
    let place ← t.follow last.place last.segment
    match t.get? place with
    | some .directory => .error .isADirectory
    | some (.file _) | none => .ok (t.put place (.file contents))

/-- The tree with a directory at the place that a path leads to. -/
def makeDirectory (t : FileTree) (path : String) : Except FileError FileTree := do
  let last ← t.lastStep path
  let place ← t.follow last.place last.segment
  match t.get? place with
  | some _ => .error .alreadyExists
  | none => .ok (t.put place .directory)

/-- What has been written is put where the last step leads, and the step leads to
no directory. -/
theorem lastStep_of_write {t t' : FileTree} {path : String} {contents : ByteArray}
    (h : t.write path contents = .ok t') :
    ∃ last place, t.lastStep path = .ok last ∧ last.leadsToDirectory = false ∧
      t.follow last.place last.segment = .ok place ∧ t.get? place ≠ some .directory ∧
      t' = t.put place (.file contents) := by
  cases hl : t.lastStep path with
  | error f => simp [write, hl, bind, Except.bind] at h
  | ok last =>
    cases hd : last.leadsToDirectory with
    | true =>
      cases hf : t.follow last.place "" <;> simp [write, hl, hd, hf, bind, Except.bind] at h
    | false =>
      cases hf : t.follow last.place last.segment with
      | error f => simp [write, hl, hd, hf, bind, Except.bind] at h
      | ok place =>
        refine ⟨last, place, rfl, hd, hf, ?_⟩
        simp only [write, hl, hd, hf, bind, Except.bind, Bool.false_eq_true, if_false] at h
        split at h
        · simp at h
        all_goals simp_all

/-! ### Reading what was written -/

/-- A step that leads somewhere still does when something that is no directory
has been put at a place where there is none. -/
theorem follow_put {t : FileTree} {place start goal : List String} {segment : String} {e : FileEntry}
    (hp : t.get? place ≠ some .directory) (h : t.follow start segment = .ok goal) :
    (t.put place e).follow start segment = .ok goal := by
  have hne : start ≠ place := by
    rintro rfl
    unfold follow at h
    split at h
    · simp at h
    · simp at h
    · exact hp ‹_›
  unfold follow at h ⊢
  rw [get?_put_of_ne t e hne]
  exact h

/-- So do all steps of a path. -/
theorem foldlM_follow_put {t : FileTree} {place : List String} {e : FileEntry}
    (hp : t.get? place ≠ some .directory) (segments : List String) {start goal : List String}
    (h : segments.foldlM t.follow start = .ok goal) :
    segments.foldlM (t.put place e).follow start = .ok goal := by
  induction segments generalizing start with
  | nil => simpa using h
  | cons s rest ih =>
    rw [List.foldlM_cons] at h ⊢
    cases hs : t.follow start s with
    | error f => simp [hs, bind, Except.bind] at h
    | ok q =>
      rw [hs] at h
      rw [follow_put hp hs]
      exact ih h

/-- A path without trailing slashes leads where its last step leads. -/
theorem locate_eq_follow_lastStep {t : FileTree} {path : String} {last : LastStep}
    (h : t.lastStep path = .ok last) (hs : last.slashed = false) :
    t.locate path = t.follow last.place last.segment := by
  unfold lastStep at h
  unfold locate
  cases hr : route path with
  | error f => simp [hr, bind, Except.bind] at h
  | ok parts =>
    simp only [hr, bind, Except.bind] at h ⊢
    cases hd : parts.reverse.dropWhile (fun s => s = "") with
    | nil =>
      simp only [hd, pure, Except.pure, Except.ok.injEq] at h
      simp [← h] at hs
    | cons name before =>
      simp only [hd] at h
      have hlen : before.length + 1 ≤ parts.length := by
        have := (List.dropWhile_sublist (fun s : String => decide (s = "")) (l := parts.reverse)).length_le
        rw [hd] at this
        simpa using this
      cases hf : before.reverse.foldlM t.follow (t.start path) with
      | error f => simp [hf] at h
      | ok place =>
        simp only [hf, pure, Except.pure, Except.ok.injEq] at h
        subst h
        simp only [List.length_cons, List.length_reverse, decide_eq_false_iff_not] at hs
        have hall : name :: before = parts.reverse := by
          rw [← hd]
          exact (List.dropWhile_sublist _).eq_of_length (by rw [hd]; simp; omega)
        have hparts : parts = before.reverse ++ [name] := by
          rw [← List.reverse_reverse parts, ← hall]
          simp
        rw [hparts, List.foldlM_append, hf]
        cases hn : t.follow place name <;> simp [bind, Except.bind, pure, Except.pure, hn]

/-- The last step of a path does not depend on what is put where there is no
directory. -/
theorem lastStep_put {t : FileTree} {path : String} {place : List String} {e : FileEntry}
    {last : LastStep} (hp : t.get? place ≠ some .directory) (h : t.lastStep path = .ok last) :
    (t.put place e).lastStep path = .ok last := by
  unfold lastStep at h ⊢
  cases hr : route path with
  | error f => simp [hr, bind, Except.bind] at h
  | ok parts =>
    have hstart : (t.put place e).start path = t.start path := rfl
    simp only [hr, hstart, bind, Except.bind] at h ⊢
    cases hd : parts.reverse.dropWhile (fun s => s = "") with
    | nil =>
      simp only [hd] at h ⊢
      exact h
    | cons name before =>
      simp only [hd] at h ⊢
      cases hf : before.reverse.foldlM t.follow (t.start path) with
      | error f => simp [hf] at h
      | ok dir =>
        rw [foldlM_follow_put hp _ hf]
        simpa [hf] using h

/-- The path leads, after the writing, to the place where the contents were put, which was
that of no directory. -/
theorem exists_locate_of_write {t t' : FileTree} {path : String} {contents : ByteArray}
    (h : t.write path contents = .ok t') :
    ∃ place, t'.locate path = .ok place ∧ place ≠ [] ∧ t.get? place ≠ some .directory ∧
      t' = t.put place (.file contents) := by
  obtain ⟨last, place, hl, hd, hf, hp, rfl⟩ := lastStep_of_write h
  have hs : last.slashed = false := by
    simp only [LastStep.leadsToDirectory, Bool.or_eq_false_iff] at hd
    exact hd.1.1
  have hplace : place ≠ [] := by
    rintro rfl
    simp [get?] at hp
  have hlocate := locate_eq_follow_lastStep (lastStep_put (e := .file contents) hp hl) hs
  rw [follow_put hp hf] at hlocate
  exact ⟨place, hlocate, hplace, hp, rfl⟩

/-- What was written into a file is read from it. -/
theorem read_write {t t' : FileTree} {path : String} {contents : ByteArray}
    (h : t.write path contents = .ok t') : t'.read path = .ok contents := by
  obtain ⟨place, hlocate, hplace, -, rfl⟩ := exists_locate_of_write h
  simp [read, hlocate, bind, Except.bind, hplace]

/-! ### Running on a tree -/

/-- Computations that work on a file tree. -/
abbrev Run := StateM FileTree

/-- Applies a change to the tree, if it succeeds. -/
def Run.change (f : FileTree → Except FileError FileTree) : Run (Except FileError Unit) := do
  match f (← get) with
  | .error e => return .error e
  | .ok t =>
    set t
    return .ok ()

instance : FileAccess Run where
  read path := return (← get).read path
  write path contents := Run.change (fun t => t.write path contents)
  makeDirectory path := Run.change (fun t => t.makeDirectory path)
  kind? path := return (← get).kind? path

end FileTree

end EntityTypings
