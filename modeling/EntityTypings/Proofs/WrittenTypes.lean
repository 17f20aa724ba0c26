import EntityTypings.Proofs.FlatUnions
import Mathlib.Data.List.Induction

/-!
# Types and their texts

A type is written with few marks: bars between the members of a union, brackets behind the items of
an array, and parentheses around the items if they are a union. Here it is shown that they are
enough: if the names have none of these marks in them (`IsReadable`), the text of a type is that of
no other (`text_eq_text_iff`).

Brackets stand behind what they apply to, so a text is taken apart from its end. There it says what
it is: brackets if it is an array, a parenthesis before them if the items are a union, and otherwise
the characters of a name. `EndsOnlyAs` is the statement that goes through the induction: where the
text of a type that is no union ends a longer text, no other such type does, as long as what comes
before it could not be part of a name. The members of a union are told apart one by one from the
last (`members_eq_of_append_eq`).

That the parentheses are needed too is part of the main statement, `types_told_by_texts`: without
them a union of which the last member is an array would be written like an array of a union.
-/

namespace EntityTypings

namespace TypeExpr

/-! ### Types that can be read -/

/-- The characters that types are put together with. -/
def marks : List Char := ['|', '(', ')', '[', ']', ' ']

/-- No character of the name is a mark. -/
def HasNoMarks (name : String) : Prop := ∀ c ∈ name.toList, c ∉ marks

instance (name : String) : Decidable (HasNoMarks name) := List.decidableBAll _ name.toList

/-- No name in the type is empty or has marks in it, and every union in it, at any depth, has at
least two members, which are no unions. -/
inductive IsReadable : TypeExpr → Prop
  /-- A name without marks. -/
  | named {name : String} (hne : name ≠ "") (hmarks : HasNoMarks name) :
    IsReadable (named name)
  /-- An array of what can be read. -/
  | array {item : TypeExpr} (hitem : IsReadable item) : IsReadable (array item)
  /-- A union of what can be read. -/
  | union {types : List TypeExpr} (htwo : 2 ≤ types.length)
    (hplain : ∀ t ∈ types, t.isUnion = false) (hreadable : ∀ t ∈ types, IsReadable t) :
    IsReadable (union types)

variable {t : TypeExpr} {types : List TypeExpr}

/-- The members of a type that can be read can be read and are no unions. -/
theorem IsReadable.members (h : t.IsReadable) :
    ∀ m ∈ t.members, m.isUnion = false ∧ m.IsReadable := by
  cases h with
  | named hne hmarks => exact List.forall_mem_singleton.2 ⟨rfl, .named hne hmarks⟩
  | array hitem => exact List.forall_mem_singleton.2 ⟨rfl, .array hitem⟩
  | union _ hplain hreadable => exact fun m hm => ⟨hplain m hm, hreadable m hm⟩

theorem IsReadable.members_ne_nil (h : t.IsReadable) : t.members ≠ [] := by
  cases h with
  | named _ _ => exact List.cons_ne_nil _ _
  | array _ => exact List.cons_ne_nil _ _
  | union htwo _ _ => exact List.ne_nil_of_length_pos (Nat.lt_of_lt_of_le Nat.two_pos htwo)

/-- The type with the given members: the only one, or their union. -/
def ofMembers : List TypeExpr → TypeExpr
  | [t] => t
  | types => union types

/-- A type that can be read is known by its members, as a union has more than one. -/
theorem IsReadable.ofMembers_members (h : t.IsReadable) : ofMembers t.members = t := by
  cases h with
  | named _ _ => rfl
  | array _ => rfl
  | @union types htwo _ _ =>
    match types with
    | _ :: _ :: _ => rfl

/-! ### How texts are put together -/

/-- The last member stands behind a bar. -/
theorem textOfMembers_concat (hne : types ≠ []) (t : TypeExpr) :
    textOfMembers (types ++ [t]) = textOfMembers types ++ " | " ++ t.text := by
  induction types with
  | nil => exact absurd rfl hne
  | cons u rest ih =>
    cases rest with
    | nil => simp [textOfMembers]
    | cons v rest =>
      have hrest := ih (List.cons_ne_nil _ _)
      rw [List.cons_append] at hrest
      simp only [List.cons_append, textOfMembers, hrest, String.append_assoc]

/-- The items of an array as they are written: in parentheses if they are a union. -/
def itemText (t : TypeExpr) : String := if t.isUnion then "(" ++ t.text ++ ")" else t.text

theorem text_array_eq (t : TypeExpr) : (array t).text = t.itemText ++ "[]" := by
  cases t with
  | named _ => exact text_array nofun
  | array _ => exact text_array nofun
  | union types =>
    have hbrackets : ")[]" = ")" ++ "[]" := rfl
    rw [text_array_union, hbrackets, ← String.append_assoc]
    rfl

/-! ### Texts from their ends -/

/-- What can come before a type: nothing, or a text that ends with a mark. -/
def AfterMark (before : List Char) : Prop := ∀ c ∈ before.getLast?, c ∈ marks

/-- What can come before a union: nothing, or a text that ends with a parenthesis. -/
def AfterParenthesis (before : List Char) : Prop := ∀ c ∈ before.getLast?, c = '('

/-- Where the text of `t` ends a text, behind a mark, no other type does that is no union. -/
def EndsOnlyAs (t : TypeExpr) : Prop :=
  ∀ u : TypeExpr, u.isUnion = false → u.IsReadable → ∀ before before' : List Char,
    AfterMark before → AfterMark before' →
      before ++ t.text.toList = before' ++ u.text.toList → before = before' ∧ t = u

theorem AfterParenthesis.afterMark {before : List Char} (h : AfterParenthesis before) :
    AfterMark before := by
  intro c hc
  rw [h c hc]
  decide

theorem afterParenthesis_concat (before : List Char) : AfterParenthesis (before ++ ['(']) := by
  intro c hc
  rw [List.getLast?_concat, Option.mem_some_iff] at hc
  exact hc.symm

theorem afterMark_bar (before : List Char) : AfterMark (before ++ " | ".toList) := by
  intro c hc
  have hlast : (before ++ " | ".toList).getLast? = some ' ' := by
    simp [List.getLast?_append]
  rw [hlast, Option.mem_some_iff] at hc
  rw [← hc]
  decide

/-- Two texts without marks that end the same text, each behind a mark, are the same. -/
theorem append_inj_of_afterMark {before before' cs ds : List Char} (hbefore : AfterMark before)
    (hbefore' : AfterMark before') (hcs : ∀ c ∈ cs, c ∉ marks) (hds : ∀ c ∈ ds, c ∉ marks)
    (h : before ++ cs = before' ++ ds) : before = before' ∧ cs = ds := by
  -- what one of the texts has more would end with a mark
  have hnil {before extra : List Char} (hbefore : AfterMark (before ++ extra))
      (hextra : ∀ c ∈ extra, c ∉ marks) : extra = [] := by
    rcases List.eq_nil_or_concat extra with rfl | ⟨init, c, rfl⟩
    · rfl
    · rw [List.concat_eq_append] at hbefore hextra
      have hlast : (before ++ (init ++ [c])).getLast? = some c := by simp
      exact absurd (hbefore c hlast) (hextra c (by simp))
  rcases List.append_eq_append_iff.1 h with ⟨extra, rfl, rfl⟩ | ⟨extra, rfl, rfl⟩
  · obtain rfl := hnil hbefore' fun c hc => hcs c (List.mem_append_left _ hc)
    simp
  · obtain rfl := hnil hbefore fun c hc => hds c (List.mem_append_left _ hc)
    simp

/-! ### Taking texts apart -/

theorem getLast?_append_array (before : List Char) (t : TypeExpr) :
    (before ++ (array t).text.toList).getLast? = some ']' := by
  simp [text_array_eq, List.getLast?_append]

/-- A name ends with a character that is no mark. -/
theorem exists_getLast?_append_named {name : String} (hne : name ≠ "")
    (hmarks : HasNoMarks name) (before : List Char) :
    ∃ c ∉ marks, (before ++ (named name).text.toList).getLast? = some c := by
  have hchars : name.toList ≠ [] := by simpa using hne
  refine ⟨name.toList.getLast hchars, hmarks _ (List.getLast_mem hchars), ?_⟩
  rw [text_named, List.getLast?_append, List.getLast?_eq_some_getLast hchars]
  rfl

/-- What can be read and is no union does not end with a parenthesis. -/
theorem IsReadable.getLast?_append_ne (h : t.IsReadable) (hplain : t.isUnion = false)
    (before : List Char) : (before ++ t.text.toList).getLast? ≠ some ')' := by
  cases h with
  | named hne hmarks =>
    obtain ⟨c, hc, hlast⟩ := exists_getLast?_append_named hne hmarks before
    rw [hlast]
    rintro ⟨⟩
    exact hc (by decide)
  | array _ =>
    rw [getLast?_append_array]
    decide
  | union _ _ _ => cases hplain

/-- What comes before the last of some members. -/
def beforeLast (before : List Char) : List TypeExpr → List Char
  | [] => before
  | types => before ++ (textOfMembers types).toList ++ " | ".toList

theorem append_textOfMembers_concat (before : List Char) (types : List TypeExpr) (t : TypeExpr) :
    before ++ (textOfMembers (types ++ [t])).toList = beforeLast before types ++ t.text.toList := by
  cases types with
  | nil => simp [beforeLast, textOfMembers]
  | cons u rest =>
    rw [textOfMembers_concat (List.cons_ne_nil _ _)]
    simp [beforeLast]

theorem afterMark_beforeLast {before : List Char} (h : AfterParenthesis before)
    (types : List TypeExpr) : AfterMark (beforeLast before types) := by
  cases types with
  | nil => exact h.afterMark
  | cons _ _ => exact afterMark_bar _

/-- The members before the last are those whose text, with a bar, comes before the last. -/
theorem beforeLast_inj {before before' : List Char} {others : List TypeExpr}
    (hbefore : AfterParenthesis before) (hbefore' : AfterParenthesis before')
    (h : beforeLast before types = beforeLast before' others) :
    (types = [] ∧ others = [] ∧ before = before') ∨ (types ≠ [] ∧ others ≠ [] ∧
      before ++ (textOfMembers types).toList = before' ++ (textOfMembers others).toList) := by
  have hspace {cs ds : List Char} (hafter : AfterParenthesis cs) : cs ≠ ds ++ " | ".toList := by
    rintro rfl
    exact absurd (hafter ' ' (by simp [List.getLast?_append])) (by decide)
  cases types with
  | nil =>
    cases others with
    | nil => exact .inl ⟨rfl, rfl, h⟩
    | cons _ _ => exact absurd h (hspace hbefore)
  | cons _ _ =>
    cases others with
    | nil => exact absurd h.symm (hspace hbefore')
    | cons _ _ =>
      exact .inr ⟨List.cons_ne_nil _ _, List.cons_ne_nil _ _, List.append_cancel_right h⟩

/-- Where members can be told apart from other types, the text of several can be told apart from
that of others, member by member from the last. -/
theorem members_eq_of_append_eq {before before' : List Char} {others : List TypeExpr}
    (hends : ∀ t ∈ types, EndsOnlyAs t) (hothers : ∀ u ∈ others, u.isUnion = false ∧ u.IsReadable)
    (hne : types ≠ []) (hneOthers : others ≠ []) (hbefore : AfterParenthesis before)
    (hbefore' : AfterParenthesis before')
    (h : before ++ (textOfMembers types).toList = before' ++ (textOfMembers others).toList) :
    before = before' ∧ types = others := by
  induction types using List.reverseRecOn generalizing others with
  | nil => exact absurd rfl hne
  | append_singleton types t ih =>
    obtain ⟨others, u, rfl⟩ : ∃ init u, others = init ++ [u] :=
      ⟨_, _, (List.dropLast_concat_getLast hneOthers).symm⟩
    rw [append_textOfMembers_concat, append_textOfMembers_concat] at h
    obtain ⟨hplain, hreadable⟩ := hothers u (by simp)
    obtain ⟨hlead, rfl⟩ := hends t (by simp) u hplain hreadable _ _
      (afterMark_beforeLast hbefore types) (afterMark_beforeLast hbefore' others) h
    obtain ⟨rfl, rfl, hsame⟩ | ⟨hnil, hnilOthers, hrest⟩ := beforeLast_inj hbefore hbefore' hlead
    · exact ⟨hsame, rfl⟩
    · obtain ⟨hsame, rfl⟩ := ih (fun v hv => hends v (List.mem_append_left _ hv))
        (fun v hv => hothers v (List.mem_append_left _ hv)) hnil hnilOthers hrest
      exact ⟨hsame, rfl⟩

theorem endsOnlyAs_named {name : String} (hne : name ≠ "") (hmarks : HasNoMarks name) :
    EndsOnlyAs (named name) := by
  intro u hplain hu before before' hbefore hbefore' h
  cases hu with
  | named _ hmarks' =>
    rw [text_named, text_named] at h
    obtain ⟨hsame, hname⟩ := append_inj_of_afterMark hbefore hbefore' hmarks hmarks' h
    exact ⟨hsame, congrArg named (String.toList_injective hname)⟩
  | array _ =>
    obtain ⟨c, hc, hlast⟩ := exists_getLast?_append_named hne hmarks before
    rw [h, getLast?_append_array] at hlast
    cases hlast
    exact absurd (by decide) hc
  | union _ _ _ => cases hplain

/-- Items of arrays can be told apart if their members can. -/
theorem eq_of_append_itemText_eq {u : TypeExpr} (ht : t.IsReadable) (hu : u.IsReadable)
    (hends : ∀ m ∈ t.members, EndsOnlyAs m) {before before' : List Char}
    (hbefore : AfterMark before) (hbefore' : AfterMark before')
    (h : before ++ t.itemText.toList = before' ++ u.itemText.toList) :
    before = before' ∧ t = u := by
  -- a union ends with a parenthesis here, and nothing else does
  have hparenthesis {v w : TypeExpr} {cs ds : List Char} (hw : w.IsReadable)
      (hunion : v.isUnion = true) (hplain : w.isUnion = false) :
      cs ++ v.itemText.toList ≠ ds ++ w.itemText.toList := by
    intro heq
    refine hw.getLast?_append_ne hplain ds ?_
    have hw : w.itemText = w.text := by simp [itemText, hplain]
    have hv : v.itemText = "(" ++ v.text ++ ")" := by simp [itemText, hunion]
    rw [← hw, ← heq, hv, String.toList_append, ← List.append_assoc]
    exact List.getLast?_concat
  cases htu : t.isUnion with
  | true =>
    cases huu : u.isUnion with
    | true =>
      simp only [itemText, htu, huu, if_true, String.toList_append, ← List.append_assoc] at h
      have h := List.append_cancel_right h
      rw [text_eq_textOfMembers t, text_eq_textOfMembers u] at h
      obtain ⟨hsame, hmembers⟩ := members_eq_of_append_eq hends hu.members ht.members_ne_nil
        hu.members_ne_nil (afterParenthesis_concat before) (afterParenthesis_concat before') h
      refine ⟨List.append_cancel_right hsame, ?_⟩
      rw [← ht.ofMembers_members, hmembers, hu.ofMembers_members]
    | false => exact absurd h (hparenthesis hu htu huu)
  | false =>
    cases huu : u.isUnion with
    | true => exact absurd h.symm (hparenthesis ht huu htu)
    | false =>
      simp only [itemText, htu, huu, Bool.false_eq_true, if_false] at h
      have hself : t ∈ t.members := by
        rw [members_of_isUnion_eq_false htu]
        exact List.mem_singleton_self t
      exact hends t hself u huu hu before before' hbefore hbefore' h

theorem endsOnlyAs_array (ht : t.IsReadable) (hends : ∀ m ∈ t.members, EndsOnlyAs m) :
    EndsOnlyAs (array t) := by
  intro u hplain hu before before' hbefore hbefore' h
  cases hu with
  | named hne hmarks =>
    obtain ⟨c, hc, hlast⟩ := exists_getLast?_append_named hne hmarks before'
    rw [← h, getLast?_append_array] at hlast
    cases hlast
    exact absurd (by decide) hc
  | @array u hu =>
    rw [text_array_eq, text_array_eq, String.toList_append, String.toList_append,
      ← List.append_assoc, ← List.append_assoc] at h
    obtain ⟨hsame, rfl⟩ := eq_of_append_itemText_eq ht hu hends hbefore hbefore'
      (List.append_cancel_right h)
    exact ⟨hsame, rfl⟩
  | union _ _ _ => cases hplain

/-- **Types that can be read and are no unions are told apart by the ends of their texts.** -/
theorem IsReadable.endsOnlyAs (h : t.IsReadable) : ∀ m ∈ t.members, EndsOnlyAs m := by
  induction h with
  | named hne hmarks => exact List.forall_mem_singleton.2 (endsOnlyAs_named hne hmarks)
  | array hitem ih => exact List.forall_mem_singleton.2 (endsOnlyAs_array hitem ih)
  | union _ hplain _ ih =>
    intro m hm
    refine ih m hm m ?_
    rw [members_of_isUnion_eq_false (hplain m hm)]
    exact List.mem_singleton_self m

/-- **No two types that can be read have the same text.** -/
theorem text_eq_text_iff {u : TypeExpr} (ht : t.IsReadable) (hu : u.IsReadable) :
    t.text = u.text ↔ t = u := by
  refine ⟨fun h => ?_, fun h => congrArg text h⟩
  have hstart : AfterParenthesis [] := nofun
  have hmembers : [] ++ (textOfMembers t.members).toList =
      [] ++ (textOfMembers u.members).toList := by
    rw [← text_eq_textOfMembers, ← text_eq_textOfMembers, h]
  have heq := (members_eq_of_append_eq ht.endsOnlyAs hu.members ht.members_ne_nil hu.members_ne_nil
    hstart hstart hmembers).2
  rw [← ht.ofMembers_members, heq, hu.ofMembers_members]

end TypeExpr

open TypeExpr

/-- **Types are told by their texts, and the parentheses are needed for that.** Types whose names are
not empty and have no marks in them, and whose unions have at least two members and no unions among
them, are the same if their texts are. A union that ends with an array and the array of the union
are written with the same characters in the same order, except for the parentheses that the union
has as items of the array. Items that are no union have no parentheses. -/
theorem types_told_by_texts {a b : TypeExpr} (ha : a.IsReadable) (hb : b.IsReadable) :
    (a.text = b.text ↔ a = b) ∧
    (∀ types t, types ≠ [] → t.isUnion = false →
      (union (types ++ [array t])).text = (union (types ++ [t])).text ++ "[]" ∧
      (array (union (types ++ [t]))).text = "(" ++ (union (types ++ [t])).text ++ ")[]") ∧
    (∀ t, t.isUnion = false → (array t).text = t.text ++ "[]") := by
  have hplain {t : TypeExpr} (ht : t.isUnion = false) : (array t).text = t.text ++ "[]" := by
    rw [text_array_eq, itemText, ht]
    rfl
  refine ⟨text_eq_text_iff ha hb, fun types t hne ht => ⟨?_, text_array_union _⟩, fun t => hplain⟩
  rw [text_union, text_union, textOfMembers_concat hne, textOfMembers_concat hne, hplain ht,
    ← String.append_assoc]

namespace TypeExpr

/-- Notes, or lists of tasks and lists of notes. -/
def innerLists : TypeExpr :=
  union [named "Note", array (union [named "Task", array (named "Note")])]

/-- Notes, or lists of lists of tasks and notes. -/
def outerLists : TypeExpr :=
  union [named "Note", array (array (union [named "Task", named "Note"]))]

theorem isReadable_lists : innerLists.IsReadable ∧ outerLists.IsReadable := by
  have htask : (named "Task").IsReadable := .named (by decide) (by decide)
  have hnote : (named "Note").IsReadable := .named (by decide) (by decide)
  have hpair {t u : TypeExpr} (ht : t.IsReadable) (hu : u.IsReadable) (htp : t.isUnion = false)
      (hup : u.isUnion = false) : (union [t, u]).IsReadable := by
    refine .union (Nat.le_refl 2) ?_ ?_
    · simp [htp, hup]
    · simp [ht, hu]
  exact ⟨hpair hnote (.array (hpair htask (.array hnote) rfl rfl)) rfl rfl,
    hpair hnote (.array (.array (hpair htask hnote rfl rfl))) rfl rfl⟩

end TypeExpr

/-- The texts differ only in where a parenthesis stands. -/
theorem texts_of_innerLists_and_outerLists :
    innerLists.IsReadable ∧ outerLists.IsReadable ∧
    innerLists.text = "Note | (Task | Note[])[]" ∧ outerLists.text = "Note | (Task | Note)[][]" ∧
    innerLists.text ≠ outerLists.text := by
  obtain ⟨hinner, houter⟩ := isReadable_lists
  obtain ⟨htold, -, -⟩ := types_told_by_texts hinner houter
  refine ⟨hinner, houter, by decide, by decide, fun h => ?_⟩
  exact absurd (htold.1 h) (by decide)

end EntityTypings
