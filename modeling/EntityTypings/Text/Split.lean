/-!
# Splitting text

The parts of a text, or of bytes, between separators. There is always a part, if
only an empty one, and a text without separators is its only part.
-/

namespace EntityTypings

variable {α : Type} [DecidableEq α]

/-- The parts of a text between the occurrences of a character. -/
def partsBetween (separator : α) : List α → List (List α)
  | [] => [[]]
  | c :: cs =>
    match partsBetween separator cs with
    | [] => [[c]]
    | part :: parts => if c = separator then [] :: part :: parts else (c :: part) :: parts

/-- There is always a part. -/
theorem partsBetween_ne_nil (separator : α) (cs : List α) :
    partsBetween separator cs ≠ [] := by
  cases cs with
  | nil => simp [partsBetween]
  | cons c cs =>
    unfold partsBetween
    split
    · simp
    · split <;> simp

/-- A text without separators is its only part. -/
theorem partsBetween_of_not_mem {separator : α} {cs : List α} (h : separator ∉ cs) :
    partsBetween separator cs = [cs] := by
  induction cs with
  | nil => rfl
  | cons c cs ih =>
    have hc : ¬ c = separator := fun e => h (e ▸ List.mem_cons_self)
    have hcs : separator ∉ cs := fun hm => h (List.mem_cons_of_mem _ hm)
    simp [partsBetween, ih hcs, hc]

end EntityTypings
