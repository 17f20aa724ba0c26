import EntityTypings.Text.Split

/-!
# Paths

Paths of files, as text. A path is a sequence of segments separated by slashes;
an empty segment and a dot stand for the directory that they are reached in, and
two dots for the one above it. What a segment means is decided when a path is
followed, so paths are kept as they are given.
-/

namespace EntityTypings.Path

/-! ### Segments -/

/-- The segments of a path. -/
def segments (path : String) : List String := (partsBetween '/' path.toList).map String.ofList

/-- Whether a path starts at the top of the file system. -/
def isAbsolute (path : String) : Bool := path.toList.head? = some '/'

/-- A segment that stays in the directory in which it is reached. -/
def isIdle (segment : String) : Bool := segment = "" || segment = "."

/-- The segments that lead somewhere. -/
def steps (path : String) : List String := (segments path).filter (fun s => !isIdle s)

/-! ### Building paths -/

/-- The path of `name` in the directory `base`. An absolute name stands for
itself; a slash is added unless `base` is empty or ends in one. -/
def join (base name : String) : String :=
  if isAbsolute name then name
  else if base = "" || base.toList.getLast? = some '/' then base ++ name
  else base ++ "/" ++ name

/-- A name in the empty directory stands for itself. -/
@[simp] theorem join_empty (name : String) : join "" name = name := by
  unfold join
  split <;> simp

/-- The path that goes through the given segments, from the top if `absolute`. -/
def ofSteps (absolute : Bool) (segments : List String) : String :=
  (if absolute then "/" else "") ++ "/".intercalate segments

/-- The directories on the way to a path, the nearest first. -/
def ancestors (path : String) : List String :=
  let rec go : List String → List String
    | [] => []
    | [_] => []
    | _ :: rest => ofSteps (isAbsolute path) rest.reverse :: go rest
  go (steps path).reverse

/-! ### Names of files -/

/-- The last segment that leads somewhere, with the path up to it. -/
def trimmed (path : String) : String :=
  let parts := (segments path).reverse.dropWhile isIdle
  "/".intercalate parts.reverse

/-- The name of the file that a path leads to, if its last step goes down. -/
def fileName? (path : String) : Option String :=
  (steps path).getLast?.filter (fun s => s ≠ "..")

/-- The part of a file's name after its last dot, if something stands before the dot. -/
def extension? (path : String) : Option String := do
  let chars := (← fileName? path).toList.reverse
  let after := chars.takeWhile (fun c => c ≠ '.')
  match chars.dropWhile (fun c => c ≠ '.') with
  | _ :: _ :: _ => some (String.ofList after.reverse)
  | _ => none

/-- A text that is the extension of a path to which it is added. -/
def IsExtension (text : String) : Prop :=
  text ≠ "" ∧ '/' ∉ text.toList ∧ '.' ∉ text.toList

instance : DecidablePred IsExtension := fun _ => inferInstanceAs (Decidable (_ ∧ _))

/-- The path with an extension added to the name of the file. -/
def addExtension? (path extension : String) : Option String :=
  (fileName? path).map (fun _ => trimmed path ++ "." ++ extension)

end EntityTypings.Path
