import EntityTypings.Proofs.AttributeNames

/-!
# The values of an attribute key

The values of a key have the union of the types of all configurations with this key. Building the
union removes repetitions, but it compares types, not their texts, and a kind that is not known is
taken for a type as it stands. So a kind that is spelled like a type that the generator makes itself
stands beside that type, and the union is written with the same text twice.

The main statement, `count_value_texts`, is that this happens with one text only: lists of texts,
which enumerators have and which a kind can spell as `string[]`. With any other kinds the texts of
the members are those of the configurations in first-seen order, without repetition.
`repeated_value_text` is a key with both.
-/

namespace EntityTypings

namespace AttributeConfiguration

/-! ### Types of single attributes -/

/-- The kinds whose values are lists of texts. -/
def enumeratorKinds : List String := ["enumerator", "dynamic enumerator"]

/-- The type of a kind is a name or that of lists of texts. -/
theorem typeOfKind_cases (kind : String) :
    (∃ name, typeOfKind kind = .named name) ∨ typeOfKind kind = .array .string := by
  unfold typeOfKind
  split
  · exact .inl ⟨_, rfl⟩
  · split
    · exact .inr rfl
    · exact .inl ⟨_, rfl⟩

theorem typeOfKind_eq_array_iff {kind : String} :
    typeOfKind kind = .array .string ↔ kind ∈ enumeratorKinds := by
  unfold typeOfKind
  split
  · refine iff_of_false (by simp [TypeExpr.string]) fun hboth => ?_
    revert kind
    decide
  · split
    · exact iff_of_true rfl ‹_›
    · exact iff_of_false (by simp) ‹_›

/-- Only the kind that is spelled so is taken over as a name for lists of texts. -/
theorem typeOfKind_eq_named_iff {kind : String} :
    typeOfKind kind = .named "string[]" ↔ kind = "string[]" := by
  unfold typeOfKind
  split
  · refine iff_of_false (by simp [TypeExpr.string]) ?_
    rintro rfl
    contradiction
  · split
    · refine iff_of_false (by simp) ?_
      rintro rfl
      contradiction
    · rw [TypeExpr.named.injEq]

/-- The type of a single attribute is no union. -/
theorem members_valueType (a : AttributeConfiguration) :
    a.valueType.members = [a.valueType] := by
  unfold valueType
  rcases typeOfKind_cases a.valueKind with ⟨name, hname⟩ | harray
  · rw [hname]
    rfl
  · rw [harray]
    rfl

end AttributeConfiguration

/-- Among names and lists of texts, a text is that of the name so spelled, and of lists of texts if
it is theirs. -/
theorem TypeExpr.count_map_text {types : List TypeExpr}
    (h : ∀ t ∈ types, (∃ name, t = named name) ∨ t = array string) (written : String) :
    (types.map text).count written =
      types.count (named written) + if written = "string[]" then types.count (array string) else 0 := by
  have hlists : (array string).text = "string[]" := by simp [text, string]
  induction types with
  | nil => simp
  | cons t types ih =>
    have hrest := ih fun u hu => h u (List.mem_cons_of_mem _ hu)
    rw [List.map_cons, List.count_cons, hrest]
    rcases h t List.mem_cons_self with ⟨name, rfl⟩ | rfl
    · by_cases hname : name = written
      · simp [hname]
        omega
      · simp [hname]
    · by_cases hwritten : written = "string[]"
      · simp [hwritten, hlists]
        omega
      · simp [hwritten, hlists, Ne.symm hwritten]

/-! ### The union for a key -/

open AttributeConfiguration AttributeTypes

variable {configurations : List AttributeConfiguration} {key : String}

/-- The types of the configurations with a key, in their order. -/
def typesOfKey (configurations : List AttributeConfiguration) (key : String) : List TypeExpr :=
  (configurations.filter (fun a => a.key = key)).map valueType

/-- The values of a key are lists of texts by two kinds: one that is known for such lists, and one
that is taken over as their type. -/
def SpellsLists (configurations : List AttributeConfiguration) (key : String) : Prop :=
  (∃ a ∈ configurations, a.key = key ∧ a.valueKind ∈ enumeratorKinds) ∧
    ∃ a ∈ configurations, a.key = key ∧ a.valueKind = "string[]"

instance (configurations : List AttributeConfiguration) (key : String) :
    Decidable (SpellsLists configurations key) :=
  inferInstanceAs (Decidable (_ ∧ _))

theorem mem_typesOfKey {t : TypeExpr} :
    t ∈ typesOfKey configurations key ↔ ∃ a ∈ configurations, a.key = key ∧ a.valueType = t := by
  simp [typesOfKey, and_assoc]

theorem spellsLists_iff :
    SpellsLists configurations key ↔ .array .string ∈ typesOfKey configurations key ∧
      .named "string[]" ∈ typesOfKey configurations key := by
  simp only [SpellsLists, mem_typesOfKey, valueType, typeOfKind_eq_array_iff,
    typeOfKind_eq_named_iff]

/-- A key that is configured has the union of the types of its configurations, and these are its
members, each once. -/
theorem exists_valueType?_members (h : ∃ a ∈ configurations, a.key = key) :
    ∃ t, (derive configurations).valueType? key = some t ∧
      t.members = firstSeen (typesOfKey configurations key) := by
  have hkey : key ∈ (derive configurations).keys := by
    rwa [keys_derive, mem_firstSeen, List.mem_map]
  have hmembers : ∀ t ∈ typesOfKey configurations key, t.members = [t] := by
    intro t ht
    obtain ⟨a, -, -, rfl⟩ := mem_typesOfKey.1 ht
    exact members_valueType a
  have hne : typesOfKey configurations key ≠ [] := by
    obtain ⟨a, ha, hkey⟩ := h
    exact List.ne_nil_of_mem (mem_typesOfKey.2 ⟨a, ha, hkey, rfl⟩)
  exact ⟨_, valueType?_of_mem_keys hkey, TypeExpr.members_unionOf hmembers hne⟩

/-- How often a text is written for a key. -/
theorem count_texts_firstSeen (written : String) :
    ((firstSeen (typesOfKey configurations key)).map TypeExpr.text).count written =
      (if written ∈ (typesOfKey configurations key).map TypeExpr.text then 1 else 0) +
        if written = "string[]" ∧ SpellsLists configurations key then 1 else 0 := by
  have hforms : ∀ t ∈ typesOfKey configurations key,
      (∃ name, t = .named name) ∨ t = .array .string := by
    intro t ht
    obtain ⟨a, -, -, rfl⟩ := mem_typesOfKey.1 ht
    exact typeOfKind_cases a.valueKind
  have hnodup := nodup_firstSeen (typesOfKey configurations key)
  have hmem : written ∈ (typesOfKey configurations key).map TypeExpr.text ↔
      .named written ∈ typesOfKey configurations key ∨
        written = "string[]" ∧ .array .string ∈ typesOfKey configurations key := by
    rw [← List.count_pos_iff, TypeExpr.count_map_text hforms, Nat.add_pos_iff_pos_or_pos,
      List.count_pos_iff]
    split <;> simp [*]
  rw [TypeExpr.count_map_text (fun t ht => hforms t (mem_firstSeen.1 ht)), hnodup.count, hnodup.count]
  simp only [mem_firstSeen, hmem, spellsLists_iff]
  by_cases hwritten : written = "string[]"
  · subst hwritten
    by_cases hname : TypeExpr.named "string[]" ∈ typesOfKey configurations key <;>
      by_cases harray : TypeExpr.array .string ∈ typesOfKey configurations key <;>
      simp [hname, harray]
  · simp [hwritten]

/-- No text is written twice for a key unless two kinds spell lists of texts. -/
theorem nodup_texts_firstSeen_iff :
    ((firstSeen (typesOfKey configurations key)).map TypeExpr.text).Nodup ↔
      ¬SpellsLists configurations key := by
  rw [List.nodup_iff_count_le_one]
  constructor
  · intro hle hspells
    have hlists : "string[]" ∈ (typesOfKey configurations key).map TypeExpr.text :=
      List.mem_map.2 ⟨_, (spellsLists_iff.1 hspells).2, rfl⟩
    have honce := hle "string[]"
    rw [count_texts_firstSeen, if_pos hlists, if_pos ⟨rfl, hspells⟩] at honce
    omega
  · intro hspells written
    rw [count_texts_firstSeen, if_neg fun hboth : _ ∧ _ => hspells hboth.2]
    split <;> omega

/-- **Which texts are repeated among the values of a key.** A key that is configured has a type,
and its members are the types of the configurations with this key and of no others, in first-seen
order. Among the texts of the members, each text of a configuration stands once, except that lists
of texts stand twice if two kinds spell them. So unless this is the case, and only then, no two
members have the same text and their texts are those of the configurations in first-seen order. -/
theorem count_value_texts (h : ∃ a ∈ configurations, a.key = key) :
    ∃ t, (derive configurations).valueType? key = some t ∧
      t.members = firstSeen (typesOfKey configurations key) ∧
      (∀ written, (t.members.map TypeExpr.text).count written =
        (if written ∈ (typesOfKey configurations key).map TypeExpr.text then 1 else 0) +
          if written = "string[]" ∧ SpellsLists configurations key then 1 else 0) ∧
      ((t.members.map TypeExpr.text).Nodup ↔ ¬SpellsLists configurations key) ∧
      (t.members.map TypeExpr.text = firstSeen ((typesOfKey configurations key).map TypeExpr.text) ↔
        ¬SpellsLists configurations key) := by
  obtain ⟨t, ht, hmembers⟩ := exists_valueType?_members h
  refine ⟨t, ht, hmembers, ?_⟩
  rw [hmembers]
  refine ⟨count_texts_firstSeen, nodup_texts_firstSeen_iff, ?_⟩
  rw [← nodup_texts_firstSeen_iff, ← firstSeen_map_firstSeen]
  constructor
  · intro htexts
    rw [htexts]
    exact nodup_firstSeen _
  · intro hdistinct
    exact (firstSeen_of_nodup hdistinct).symm

/-- Configurations of the key `state` with values of the given kinds. -/
def ofKinds (kinds : List String) : List AttributeConfiguration :=
  kinds.map (fun kind => ⟨"state", "", "task", none, true, kind, .null⟩)

/-- Two kinds of lists of texts are written once, and so are two kinds of texts. -/
theorem value_texts_of_listsAndTexts :
    ∃ t, (∃ a ∈ ofKinds ["enumerator", "text", "dynamic enumerator", "url"], a.key = "state") ∧
      (derive (ofKinds ["enumerator", "text", "dynamic enumerator", "url"])).valueType? "state" =
        some t ∧ t.members.map TypeExpr.text = ["string[]", "string"] := by
  have hkey : ∃ a ∈ ofKinds ["enumerator", "text", "dynamic enumerator", "url"], a.key = "state" := by
    simp [ofKinds]
  obtain ⟨t, ht, -, -, -, htexts⟩ := count_value_texts hkey
  exact ⟨t, hkey, ht, (htexts.2 (by decide)).trans (by decide +kernel)⟩

/-- **A text can be repeated**: that of lists of texts, by the kind that is spelled like it. -/
theorem repeated_value_text :
    ∃ t, (derive (ofKinds ["enumerator", "string[]"])).valueType? "state" = some t ∧
      t.members.map TypeExpr.text = ["string[]", "string[]"] ∧ t.text = "string[] | string[]" :=
  ⟨_, rfl, by decide +kernel, by decide +kernel⟩

end EntityTypings
