import EntityTypings.FirstSeen

/-!
# Type expressions

The types that generated declarations give to their members: a name used as it
stands, an array of a type, or a union of types.

A union under `[]` is put in parentheses and nothing else is, because `[]`
binds tighter than `|` and a member of a union never needs any.

`unionOf` is how unions are built: repetitions are removed in first-seen
order, a union among the members contributes its own members, no member at all
gives `never`, and a single member stands for itself.
-/

namespace EntityTypings

/-- A type of the generated source. -/
inductive TypeExpr where
  /-- A type written by its name, used as it stands. -/
  | named (name : String)
  /-- The type of lists of `item`. -/
  | array (item : TypeExpr)
  /-- The type of values that have one of the types `members`. -/
  | union (members : List TypeExpr)
  deriving Repr, Inhabited

namespace TypeExpr

/-! ### Equality -/

mutual

/-- Equality of type expressions is decidable. -/
def decEq : (a b : TypeExpr) → Decidable (a = b)
  | named a, named b =>
    if h : a = b then isTrue (h ▸ rfl) else isFalse (fun e => h (by cases e; rfl))
  | array a, array b =>
    match decEq a b with
    | isTrue h => isTrue (h ▸ rfl)
    | isFalse h => isFalse (fun e => h (by cases e; rfl))
  | union a, union b =>
    match decEqList a b with
    | isTrue h => isTrue (h ▸ rfl)
    | isFalse h => isFalse (fun e => h (by cases e; rfl))
  | named _, array _ | named _, union _ | array _, named _
  | array _, union _ | union _, named _ | union _, array _ => isFalse nofun

/-- Equality of lists of type expressions is decidable. -/
def decEqList : (a b : List TypeExpr) → Decidable (a = b)
  | [], [] => isTrue rfl
  | [], _ :: _ | _ :: _, [] => isFalse nofun
  | a :: as, b :: bs =>
    match decEq a b, decEqList as bs with
    | isTrue h, isTrue hs => isTrue (h ▸ hs ▸ rfl)
    | isFalse h, _ => isFalse (fun e => h (by cases e; rfl))
    | _, isFalse hs => isFalse (fun e => hs (by cases e; rfl))

end

instance : DecidableEq TypeExpr := decEq

/-! ### Names that the generator itself uses -/

/-- The type of texts. -/
def string : TypeExpr := named "string"

/-- The type of numbers. -/
def number : TypeExpr := named "number"

/-- The type of truth values. -/
def boolean : TypeExpr := named "boolean"

/-- The type without values, which is the union of no types. -/
def never : TypeExpr := named "never"

/-- The type of a value that may be a text, a number, a truth value or a list of texts. -/
def anyScalar : TypeExpr := union [string, number, boolean, array string]

/-- Whether the type is exactly the name `string`. -/
def isBareString : TypeExpr → Bool
  | named name => name = "string"
  | _ => false

/-- Only `string` itself is a bare string. -/
theorem isBareString_iff {t : TypeExpr} : t.isBareString = true ↔ t = string := by
  cases t <;> simp [isBareString, string]

/-! ### Unions -/

/-- What a type contributes to a union that has it as a member. -/
def members : TypeExpr → List TypeExpr
  | union ts => ts
  | t => [t]

/-- The union of the given types. -/
def unionOf (types : List TypeExpr) : TypeExpr :=
  match firstSeen (types.flatMap members) with
  | [] => never
  | [t] => t
  | ts => union ts

@[simp] theorem unionOf_nil : unionOf [] = never := rfl

/-- The members of a union of types that are no unions are these types, each once. -/
theorem members_unionOf {types : List TypeExpr} (h : ∀ t ∈ types, t.members = [t])
    (hne : types ≠ []) : (unionOf types).members = firstSeen types := by
  have hmembers : types.flatMap members = types := by
    rw [List.flatMap_def, List.map_congr_left h, ← List.flatMap_def, List.flatMap_singleton']
  unfold unionOf
  rw [hmembers]
  match hfirst : firstSeen types with
  | [] =>
    have hmem : ∀ t ∈ types, False := fun t ht => by
      rw [← mem_firstSeen, hfirst] at ht
      cases ht
    exact absurd (List.eq_nil_iff_forall_not_mem.2 hmem) hne
  | [t] =>
    have ht : t ∈ types := mem_firstSeen.1 (by simp [hfirst])
    exact h t ht
  | t :: u :: rest => rfl

/-! ### Text -/

mutual

/-- The type as it is written in the generated source. -/
def text : TypeExpr → String
  | named name => name
  | array (union ts) => "(" ++ textOfMembers ts ++ ")[]"
  | array (named name) => name ++ "[]"
  | array (array t) => (array t).text ++ "[]"
  | union ts => textOfMembers ts

/-- The members of a union, joined by bars. -/
def textOfMembers : List TypeExpr → String
  | [] => ""
  | [t] => t.text
  | t :: ts => t.text ++ " | " ++ textOfMembers ts

end

instance : ToString TypeExpr := ⟨text⟩

@[simp] theorem text_named (name : String) : (named name).text = name := by simp [text]

@[simp] theorem text_union (ts : List TypeExpr) : (union ts).text = textOfMembers ts := by
  simp [text]

/-- A type is written as its members, joined by bars. -/
theorem text_eq_textOfMembers (t : TypeExpr) : t.text = textOfMembers t.members := by
  cases t with
  | named _ => simp [members, textOfMembers]
  | array _ => simp [members, textOfMembers]
  | union _ => rw [text_union, members]

/-- Names joined by bars. -/
theorem textOfMembers_map_named (names : List String) :
    textOfMembers (names.map named) = " | ".intercalate names := by
  induction names with
  | nil => rfl
  | cons n rest ih =>
    cases rest with
    | nil => simp [textOfMembers]
    | cons m rest =>
      rw [List.map_cons, List.map_cons, textOfMembers, ← List.map_cons, ih, text_named,
        String.intercalate_cons_cons]
      · exact fun h => List.cons_ne_nil _ _ h

/-- A union under `[]` is parenthesised. -/
theorem text_array_union (ts : List TypeExpr) :
    (array (union ts)).text = "(" ++ (union ts).text ++ ")[]" := by
  simp [text]

/-- Nothing but a union is parenthesised under `[]`. -/
theorem text_array {t : TypeExpr} (h : ∀ ts, t ≠ union ts) : (array t).text = t.text ++ "[]" := by
  cases t with
  | named name => simp [text]
  | array t => simp [text]
  | union ts => exact absurd rfl (h ts)

end TypeExpr

end EntityTypings
