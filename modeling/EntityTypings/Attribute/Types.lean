import EntityTypings.Attribute.Basic
import Std.Data.String.ToNat

/-!
# Types of custom attributes

What the generated source declares for custom attributes. Several
configurations can share a key; the value of a key has the union of their
types. Each key has a declared type of its own, whose name is made from the key
by replacing every character that an identifier cannot have. Keys that come out
alike are told apart by the suffixes `_2`, `_3` and so on, in the order in which
the keys are first seen.

For a schema, the keys that apply are listed by the first configuration that
applies, and the type of its attributes is the union of their declared types.

The main statement here is that a name chosen by `freshName` is not taken
(`freshName_not_mem`), which makes the names of distinct keys distinct
(`nodup_assignNames`).
-/

namespace EntityTypings

/-! ### Names of types -/

/-- The start of every declared type of a key. -/
def valueTypePrefix : String := "CustomAttributeValue_"

/-- A character that an identifier can have. -/
def isIdentifierChar (c : Char) : Bool := c.isAlphanum || c = '_' || c = '$'

/-- The name of the declared type of a key, before names are told apart. -/
def valueTypeName (key : String) : String :=
  valueTypePrefix ++ key.map (fun c => if isIdentifierChar c then c else '_')

/-- The name with a number at its end. -/
def numbered (name : String) (n : Nat) : String := name ++ "_" ++ toString n

/-- The name itself if it is not taken, and otherwise the name with the least
number from two on that is not. Among one number more than there are taken
names there is one that is free. -/
def freshName (name : String) (taken : List String) : String :=
  if name ∈ taken then
    (((List.range (taken.length + 1)).map (fun i => numbered name (i + 2))).find?
      (fun n => n ∉ taken)).getD name
  else name

/-- Different numbers give different names. -/
theorem numbered_injective {name : String} {m n : Nat} (h : numbered name m = numbered name n) :
    m = n := by
  unfold numbered at h
  have h : (toString m : String) = toString n := String.append_right_inj _ |>.1 h
  exact Nat.repr_inj.1 h

/-- A list of distinct elements of another list is no longer than it. -/
theorem length_le_of_nodup_subset {l : List String} :
    ∀ taken : List String, l.Nodup → (∀ x ∈ l, x ∈ taken) → l.length ≤ taken.length := by
  induction l with
  | nil => intro taken _ _; simp
  | cons x xs ih =>
    intro taken hn hs
    rw [List.nodup_cons] at hn
    have hx : x ∈ taken := hs x List.mem_cons_self
    have := ih (taken.erase x) hn.2 (fun y hy =>
      (List.mem_erase_of_ne (fun e : y = x => hn.1 (e ▸ hy))).2 (hs y (List.mem_cons_of_mem _ hy)))
    have hlen := List.length_erase_of_mem hx
    have hpos : 0 < taken.length := List.length_pos_of_mem hx
    simp only [List.length_cons]
    omega

/-- A fresh name is not taken. -/
theorem freshName_not_mem (name : String) (taken : List String) : freshName name taken ∉ taken := by
  unfold freshName
  split
  · generalize hc : (List.range (taken.length + 1)).map (fun i => numbered name (i + 2)) = candidates
    have hnodup : candidates.Nodup :=
      hc ▸ List.Pairwise.map _
        (fun a b hne h => hne (by have := numbered_injective h; omega)) List.nodup_range
    cases hfind : candidates.find? (fun n => n ∉ taken) with
    | some n => simpa using List.find?_some hfind
    | none =>
      have hall : ∀ x ∈ candidates, x ∈ taken := by
        intro x hx
        simpa using List.find?_eq_none.1 hfind x hx
      have hlen := length_le_of_nodup_subset taken hnodup hall
      have hcount : candidates.length = taken.length + 1 := by simp [← hc]
      omega
  · assumption

/-- A type name for each key, distinct from the taken names and from each other. -/
def assignNames : (taken : List String) → List String → List (String × String)
  | _, [] => []
  | taken, key :: keys =>
    let name := freshName (valueTypeName key) taken
    (key, name) :: assignNames (name :: taken) keys

/-- The assigned names are distinct, and none of them was taken. -/
theorem nodup_assignNames (taken keys : List String) :
    ((assignNames taken keys).map Prod.snd).Nodup ∧
      ∀ n ∈ (assignNames taken keys).map Prod.snd, n ∉ taken := by
  induction keys generalizing taken with
  | nil => simp [assignNames]
  | cons key keys ih =>
    have hfresh := freshName_not_mem (valueTypeName key) taken
    obtain ⟨hn, hd⟩ := ih (freshName (valueTypeName key) taken :: taken)
    simp only [assignNames, List.map_cons, List.nodup_cons, List.mem_cons]
    refine ⟨⟨fun h => hd _ h List.mem_cons_self, hn⟩, ?_⟩
    rintro n (rfl | h)
    · exact hfresh
    · exact fun ht => hd _ h (List.mem_cons_of_mem _ ht)

/-- Each key is assigned a name, in order. -/
@[simp] theorem map_fst_assignNames (taken keys : List String) :
    (assignNames taken keys).map Prod.fst = keys := by
  induction keys generalizing taken with
  | nil => rfl
  | cons key keys ih => simp [assignNames, ih]

/-! ### Types by key -/

/-- The custom attributes of a run with the names of their declared types. -/
structure AttributeTypes where
  /-- The configurations, in the order of the response. -/
  configurations : List AttributeConfiguration
  /-- The keys with the names of their declared types, in first-seen order. -/
  names : List (String × String)

namespace AttributeTypes

/-- The types of the attributes that are configured. -/
def derive (configurations : List AttributeConfiguration) : AttributeTypes :=
  ⟨configurations, assignNames [] (firstSeen (configurations.map AttributeConfiguration.key))⟩

/-- The keys, in first-seen order. -/
def keys (t : AttributeTypes) : List String := t.names.map Prod.fst

@[simp] theorem keys_derive (configurations : List AttributeConfiguration) :
    (derive configurations).keys = firstSeen (configurations.map AttributeConfiguration.key) := by
  simp [keys, derive]

/-- The type of the values of a key, if it is configured. -/
def valueType? (t : AttributeTypes) (key : String) : Option TypeExpr :=
  match t.configurations.filter (fun a => a.key = key) with
  | [] => none
  | as => some (.unionOf (as.map AttributeConfiguration.valueType))

/-- The name of the declared type of a key; one that is not configured has the
name that it would have alone. -/
def typeName (t : AttributeTypes) (key : String) : String :=
  (t.names.lookup key).getD (valueTypeName key)

/-- The keys that apply to a schema, by the first configuration that applies. -/
def applicableKeys (t : AttributeTypes) (s : Schema) : List String :=
  firstSeen ((t.configurations.filter (fun a => a.appliesTo s)).map AttributeConfiguration.key)

/-- The union of the declared types of the keys that apply to a schema. -/
def schemaType (t : AttributeTypes) (s : Schema) : TypeExpr :=
  .unionOf ((t.applicableKeys s).map (fun key => .named (t.typeName key)))

/-- A key applies exactly if one of its configurations does. -/
theorem mem_applicableKeys {t : AttributeTypes} {s : Schema} {key : String} :
    key ∈ t.applicableKeys s ↔ ∃ a ∈ t.configurations, a.key = key ∧ a.appliesTo s = true := by
  simp only [applicableKeys, mem_firstSeen, List.mem_map, List.mem_filter]
  constructor
  · rintro ⟨a, ⟨h, ha⟩, hk⟩
    exact ⟨a, h, hk, ha⟩
  · rintro ⟨a, h, hk, ha⟩
    exact ⟨a, ⟨h, ha⟩, hk⟩

end AttributeTypes

end EntityTypings
