import EntityTypings.Proofs.DescriptorGrammar
import Mathlib.Logic.Function.Iterate

/-!
# The types of descriptors that were read

A descriptor that was read is what the end of the spine of its value stands for, inside the levels
of the spine. So its type is that of the end with as many pairs of brackets behind it as there are
levels, and of all ends only the one that can be any scalar has a type that `[]` does not bind to
by itself.

The main statement, `types_of_ofJson`, says this of the text. It rests on what reading guarantees
and the type of descriptors does not: that nothing below the top is untyped. The rule for links is
there said by the text of the type, although it is decided by its form: of the types that a
descriptor can have, no other is written like the type of texts (`text_eq_string_iff`).
-/

namespace EntityTypings

namespace TypeExpr

/-! ### Brackets -/

theorem array_ne_union (t : TypeExpr) (ts : List TypeExpr) : array t ≠ union ts := by
  simp

/-- Lists of lists of anything but a union have the brackets behind it. -/
theorem text_iterate_array {t : TypeExpr} (h : ∀ ts, t ≠ union ts) (n : Nat) :
    (array^[n] t).text = t.text ++ String.join (List.replicate n "[]") := by
  induction n generalizing t with
  | zero => simp
  | succ n ih =>
    rw [Function.iterate_succ_apply, ih (array_ne_union t), text_array h, List.replicate_succ,
      String.join_cons, String.append_assoc]

/-- A union is put in parentheses once, by the innermost brackets. -/
theorem text_iterate_array_union (ts : List TypeExpr) (n : Nat) :
    (array^[n + 1] (union ts)).text =
      "(" ++ (union ts).text ++ ")" ++ String.join (List.replicate (n + 1) "[]") := by
  rw [Function.iterate_succ_apply, text_iterate_array (array_ne_union _), text_array_union,
    List.replicate_succ, String.join_cons]
  simp only [String.append_assoc]
  rfl

/-- A type of lists ends with a bracket, so it is not written like the type of texts. -/
theorem text_array_ne_string (t : TypeExpr) : (array t).text ≠ "string" := by
  obtain ⟨start, hstart⟩ : ∃ start, (array t).text = start ++ "[]" := by
    cases t with
    | union ts =>
      refine ⟨"(" ++ (union ts).text ++ ")", ?_⟩
      rw [text_array_union]
      simp only [String.append_assoc]
      rfl
    | named name => exact ⟨_, text_array (by simp)⟩
    | array t => exact ⟨_, text_array (array_ne_union t)⟩
  intro h
  have hlast := congrArg (fun text => text.toList.getLast?) (hstart.symm.trans h)
  simp at hlast

end TypeExpr

namespace Descriptor

/-! ### The parts of a descriptor -/

/-- The kind of the vocabulary that a descriptor names. -/
def kind? : Descriptor → Option Kind
  | scalar k => some (.scalar k)
  | sequence k _ => some (.sequence k)
  | reference _ | untyped => none

/-- The descriptor of the items. -/
def items? : Descriptor → Option Descriptor
  | sequence _ items => some items
  | reference _ | scalar _ | untyped => none

/-- The descriptor and, level by level, those below it. -/
def parts : Descriptor → List Descriptor
  | sequence k items => sequence k items :: items.parts
  | d => [d]

/-- There are items exactly if the kind is one of sequences. -/
theorem isSome_items? (d : Descriptor) : d.items?.isSome = d.kind?.any Kind.isSequence := by
  cases d <;> rfl

/-- Below the top of a typed end inside sequences, nothing is untyped. -/
theorem ne_untyped_of_mem_parts_nested {leaf : Descriptor} (hleaf : leaf.parts = [leaf])
    (htyped : leaf ≠ .untyped) {kinds : List SequenceKind} {p : Descriptor}
    (h : p ∈ (nested kinds leaf).parts) : p ≠ .untyped := by
  induction kinds with
  | nil =>
    rw [nested, List.foldr_nil, hleaf, List.mem_singleton] at h
    exact h ▸ htyped
  | cons k kinds ih =>
    rw [nested, List.foldr_cons, parts] at h
    rcases List.mem_cons.1 h with rfl | h
    · exact Descriptor.noConfusion
    · exact ih h

/-! ### The type inside the levels -/

theorem typeExpr?_nested (kinds : List SequenceKind) (leaf : Descriptor) :
    (nested kinds leaf).typeExpr? = leaf.typeExpr?.map (TypeExpr.array^[kinds.length]) := by
  induction kinds with
  | nil => simp [nested]
  | cons k kinds ih =>
    calc (nested (k :: kinds) leaf).typeExpr?
        = (nested kinds leaf).typeExpr?.map .array := rfl
      _ = leaf.typeExpr?.map (TypeExpr.array ∘ TypeExpr.array^[kinds.length]) := by
          rw [ih, Option.map_map]
      _ = leaf.typeExpr?.map (TypeExpr.array^[(k :: kinds).length]) := by
          rw [List.length_cons, Function.iterate_succ']

/-- How the type of the end of a spine is written. -/
def endText? : Descriptor → Option String
  | reference target => some target
  | scalar .integer | scalar .number => some "number"
  | scalar .variant => some "string | number | boolean | string[]"
  | scalar k => some k.name
  | sequence _ _ | untyped => none

/-- The end of a spine has no parts of its own, and its type is written as said. -/
theorem text_of_endStandsFor {w : Json} {leaf : Descriptor} (h : EndStandsFor w leaf) :
    leaf.parts = [leaf] ∧ leaf.typeExpr?.map TypeExpr.text = endText? leaf := by
  cases h with
  | reference _ _ => simp [parts, typeExpr?, endText?]
  | @scalar _ k _ _ => cases k <;> exact ⟨rfl, by decide +kernel⟩
  | untyped _ _ => exact ⟨rfl, rfl⟩

/-- Of the ends of spines, only the one that can be any scalar has a union for its type. -/
theorem typeExpr?_ne_union {w : Json} {leaf : Descriptor} (h : EndStandsFor w leaf)
    (hleaf : leaf ≠ .scalar .variant) {t : TypeExpr} (ht : leaf.typeExpr? = some t) :
    ∀ ts, t ≠ .union ts := by
  cases h with
  | reference _ _ => cases ht; nofun
  | @scalar _ k _ _ =>
    cases k with
    | variant => exact absurd rfl hleaf
    | _ => cases ht; nofun
  | untyped _ _ => cases ht

theorem text_nested {w : Json} {leaf : Descriptor} (h : EndStandsFor w leaf)
    (kinds : List SequenceKind) :
    (nested kinds leaf).typeExpr?.map TypeExpr.text = (endText? leaf).map (fun text =>
      (if kinds ≠ [] ∧ leaf = .scalar .variant then "(" ++ text ++ ")" else text)
        ++ String.join (List.replicate kinds.length "[]")) := by
  rw [typeExpr?_nested, ← (text_of_endStandsFor h).2]
  cases ht : leaf.typeExpr? with
  | none => rfl
  | some t =>
    simp only [Option.map_some, Option.some.injEq]
    by_cases hleaf : leaf = .scalar .variant
    · subst hleaf
      cases ht
      cases kinds with
      | nil => simp
      | cons k kinds =>
        rw [if_pos ⟨List.cons_ne_nil _ _, rfl⟩]
        exact TypeExpr.text_iterate_array_union _ _
    · rw [if_neg fun hboth => hleaf hboth.2]
      exact TypeExpr.text_iterate_array (typeExpr?_ne_union h hleaf ht) _

/-! ### Links -/

/-- A descriptor that has a type has the type of texts if its type is written like that. -/
theorem text_eq_string_iff {d : Descriptor} {t : TypeExpr} (h : d.typeExpr? = some t) :
    t.text = "string" ↔ t.isBareString = true := by
  rw [TypeExpr.isBareString_iff]
  cases d with
  | reference target =>
    cases h
    simp [TypeExpr.string]
  | scalar k => cases k <;> cases h <;> decide +kernel
  | sequence k items =>
    obtain ⟨i, -, rfl⟩ := Option.map_eq_some_iff.1 h
    exact iff_of_false (TypeExpr.text_array_ne_string i) (by simp [TypeExpr.string])
  | untyped => cases h

theorem propertyType?_eq (name : String) (d : Descriptor) :
    propertyType? name d =
      if name = "link" ∧ d.typeExpr?.map TypeExpr.text = some "string" then
        some (.array (.named "BasicLink"))
      else d.typeExpr? := by
  unfold propertyType?
  cases h : d.typeExpr? with
  | none => simp
  | some t =>
    simp only [Option.map_some, Option.some.injEq, text_eq_string_iff h]
    split <;> rfl

end Descriptor

/-- **The type of a descriptor that was read.** The descriptor is what the end of the value's spine
stands for, inside the levels of the spine. Its parts have items exactly if their kind is one of
sequences, and below the top none is untyped; so it has a type unless it is untyped as a whole. The
type is written like that of the end, which only if it is a union inside some level is put in
parentheses, with a pair of brackets for each level. A property so described has this type, except
that one named `link` has links for texts. -/
theorem Descriptor.types_of_ofJson {j : Json} {d : Descriptor} (h : ofJson j = .ok d) :
    ∃ kinds w leaf, Spine j kinds w ∧ EndStandsFor w leaf ∧ d = nested kinds leaf ∧
      (∀ p ∈ d.parts, p.items?.isSome = p.kind?.any Kind.isSequence) ∧
      (∀ p ∈ d.parts.tail, p ≠ .untyped) ∧
      (d.typeExpr? = none ↔ d = .untyped) ∧
      d.typeExpr?.map TypeExpr.text = (endText? leaf).map (fun text =>
        (if kinds ≠ [] ∧ leaf = .scalar .variant then "(" ++ text ++ ")" else text)
          ++ String.join (List.replicate kinds.length "[]")) ∧
      ∀ name, propertyType? name d =
        if name = "link" ∧ d.typeExpr?.map TypeExpr.text = some "string" then
          some (.array (.named "BasicLink"))
        else d.typeExpr? := by
  obtain ⟨kinds, w, hspine⟩ := exists_spine j
  obtain ⟨leaf, hleaf, huntyped, rfl⟩ := (ofJson_eq_ok_iff hspine).1 h
  have hparts : leaf.parts = [leaf] := (text_of_endStandsFor hleaf).1
  refine ⟨kinds, w, leaf, hspine, hleaf, rfl, fun p _ => isSome_items? p, fun p hp => ?_, ?_,
    text_nested hleaf kinds, fun name => propertyType?_eq name _⟩
  · cases kinds with
    | nil => simp [nested, hparts] at hp
    | cons k kinds =>
      have htyped : leaf ≠ .untyped := fun heq => List.cons_ne_nil _ _ (huntyped heq)
      exact ne_untyped_of_mem_parts_nested hparts htyped hp
  · refine ⟨fun hnone => ?_, fun heq => by rw [heq]; rfl⟩
    by_contra hne
    have hsome := typeExpr?_isSome_of_ofJson h hne
    rw [hnone] at hsome
    cases hsome

namespace Descriptor

/-- Any scalar. -/
def anyScalarValue : Json := .object [("type", .string "variable")]

/-- A list with keys of lists of them. -/
def scalarLists : Json :=
  .object [("type", .string "mapped_array"), ("items", .object
    [("type", .string "array"), ("items", anyScalarValue)])]

/-- The union is put in parentheses once, and a property named `link` keeps it. -/
theorem types_of_scalarLists :
    ∃ d, ofJson scalarLists = .ok d ∧ Spine scalarLists [.mappedArray, .array] anyScalarValue ∧
      EndStandsFor anyScalarValue (.scalar .variant) ∧
      d.typeExpr?.map TypeExpr.text = some "(string | number | boolean | string[])[][]" ∧
      propertyType? "link" d = d.typeExpr? := by
  have hread : ofJson scalarLists =
      .ok (.sequence .mappedArray (.sequence .array (.scalar .variant))) := rfl
  obtain ⟨kinds, w, leaf, hspine, hleaf, hnested, -, -, -, htext, hproperty⟩ :=
    types_of_ofJson hread
  have hlast : ∀ fields k, anyScalarValue = .object fields → ¬IsLevel fields k := by
    rintro fields k heq ⟨-, htype⟩
    cases heq
    have hname : Json.string "variable" = .string k.name := Option.some.inj htype
    cases k <;> exact absurd (Json.string.inj hname) (by decide)
  have hlevels : Spine scalarLists [.mappedArray, .array] anyScalarValue :=
    .level ⟨.inl rfl, rfl⟩ (.level ⟨.inl rfl, rfl⟩ (.last hlast))
  obtain ⟨rfl, rfl⟩ := hlevels.unique hspine
  obtain rfl : leaf = .scalar .variant := by
    cases hnested
    rfl
  refine ⟨_, hread, hlevels, hleaf, htext.trans (by decide +kernel), ?_⟩
  rw [hproperty, if_neg]
  rw [htext]
  decide +kernel

end Descriptor

end EntityTypings
