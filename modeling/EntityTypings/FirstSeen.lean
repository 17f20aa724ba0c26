/-!
# First-seen order

Removing repetitions from a list while keeping the first occurrence of each
element. Type unions, attribute keys and the keys that apply to a schema are
all kept in this order.

The main statements are that `firstSeen` has the same elements as its input
(`mem_firstSeen`), repeats none of them (`nodup_firstSeen`), and leaves a list
without repetitions alone (`firstSeen_of_nodup`). Filtering commutes with it
(`firstSeen_filter`), mapping does up to repetitions among the images
(`firstSeen_map_firstSeen`), and of two lists one after the other the second adds
what the first does not have (`firstSeen_append`).
-/

namespace EntityTypings

variable {α : Type} [DecidableEq α]

/-- The list without later repetitions: each element stands where it is first seen. -/
def firstSeen : List α → List α
  | [] => []
  | x :: xs => x :: (firstSeen xs).filter (fun y => decide (y ≠ x))

@[simp] theorem firstSeen_nil : firstSeen ([] : List α) = [] := rfl

theorem firstSeen_cons (x : α) (xs : List α) :
    firstSeen (x :: xs) = x :: (firstSeen xs).filter (fun y => decide (y ≠ x)) := rfl

/-- No element is lost and none is invented. -/
@[simp] theorem mem_firstSeen {a : α} {xs : List α} : a ∈ firstSeen xs ↔ a ∈ xs := by
  induction xs with
  | nil => simp
  | cons x xs ih =>
    by_cases h : a = x
    · simp [firstSeen_cons, h]
    · simp [firstSeen_cons, ih, h]

/-- No element is repeated. -/
theorem nodup_firstSeen (xs : List α) : (firstSeen xs).Nodup := by
  induction xs with
  | nil => simp
  | cons x xs ih =>
    rw [firstSeen_cons, List.nodup_cons]
    exact ⟨by simp, ih.filter _⟩

/-- Elements can be dropped before repetitions are removed or after. -/
theorem firstSeen_filter (p : α → Bool) (xs : List α) :
    firstSeen (xs.filter p) = (firstSeen xs).filter p := by
  induction xs with
  | nil => rfl
  | cons x xs ih =>
    cases hx : p x with
    | true =>
      rw [List.filter_cons_of_pos hx, firstSeen_cons, firstSeen_cons, List.filter_cons_of_pos hx, ih,
        List.filter_filter, List.filter_filter]
      simp only [Bool.and_comm]
    | false =>
      -- what is left out with `x` would be dropped anyway
      rw [List.filter_cons_of_neg (by simp [hx]), firstSeen_cons,
        List.filter_cons_of_neg (by simp [hx]), ih, List.filter_filter]
      refine List.filter_congr fun y _ => ?_
      by_cases hyx : y = x <;> simp [hyx, hx]

/-- Repetitions that are removed among elements need not be removed among their images. -/
theorem firstSeen_map_firstSeen {β : Type} [DecidableEq β] (f : α → β) (xs : List α) :
    firstSeen ((firstSeen xs).map f) = firstSeen (xs.map f) := by
  induction xs with
  | nil => rfl
  | cons x xs ih =>
    have hdropped (ys : List α) : (firstSeen (ys.map f)).filter (fun b => decide (b ≠ f x)) =
        firstSeen ((ys.filter (fun y => decide (f y ≠ f x))).map f) := by
      rw [← firstSeen_filter, List.filter_map]
      rfl
    rw [firstSeen_cons, List.map_cons, List.map_cons, firstSeen_cons, firstSeen_cons, ← ih, hdropped,
      hdropped, List.filter_filter]
    -- an element with another image than `x` is not `x`
    congr 4
    funext y
    by_cases hyx : y = x <;> simp [hyx]

/-- Of two lists one after the other, the second adds what the first does not have. -/
theorem firstSeen_append (xs ys : List α) :
    firstSeen (xs ++ ys) = firstSeen xs ++ (firstSeen ys).filter (fun y => decide (y ∉ xs)) := by
  induction xs with
  | nil => exact (List.filter_eq_self.2 (by simp)).symm
  | cons x xs ih =>
    rw [List.cons_append, firstSeen_cons, ih, List.filter_append, List.filter_filter, firstSeen_cons,
      List.cons_append]
    simp only [List.mem_cons, not_or, Bool.decide_and]

/-- Of lists with the same elements, the elements in first-seen order are the same up to order. -/
theorem firstSeen_perm {xs ys : List α} (h : ∀ a, a ∈ xs ↔ a ∈ ys) :
    (firstSeen xs).Perm (firstSeen ys) := by
  rw [List.perm_ext_iff_of_nodup (nodup_firstSeen xs) (nodup_firstSeen ys)]
  simpa using h

/-- Dropping, after each element, all later ones that equal it leaves first-seen order. -/
theorem eraseDups_eq_firstSeen (xs : List α) : xs.eraseDups = firstSeen xs := by
  match xs with
  | [] => rfl
  | x :: xs =>
    have hrest : (xs.filter (fun y => !y == x)).eraseDups = firstSeen (xs.filter (fun y => !y == x)) :=
      eraseDups_eq_firstSeen _
    rw [List.eraseDups_cons, hrest, firstSeen_filter, firstSeen_cons]
    congr 2
    funext y
    by_cases hyx : y = x <;> simp [hyx]
termination_by xs.length
decreasing_by
  exact Nat.lt_succ_of_le (List.length_filter_le _ _)

/-- A list without repetitions is its own first-seen order. -/
theorem firstSeen_of_nodup {xs : List α} (h : xs.Nodup) : firstSeen xs = xs := by
  induction xs with
  | nil => rfl
  | cons x xs ih =>
    rw [List.nodup_cons] at h
    rw [firstSeen_cons, ih h.2, List.filter_eq_self.2]
    intro y hy
    simpa using fun e : y = x => h.1 (e ▸ hy)

end EntityTypings
