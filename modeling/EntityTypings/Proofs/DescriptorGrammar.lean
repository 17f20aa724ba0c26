import EntityTypings.Proofs.Resolution

/-!
# The grammar of descriptors

A descriptor is read recursively, level by level. Here it is said without the recursion what is
read. From a value one follows `items` as long as the value says that it is a sequence: the kinds
that are passed are the levels of its spine, and the value at which one stops is the end of the
spine (`Spine`). Every value has exactly one spine (`exists_spine`, `Spine.unique`).

The end alone decides. It is a reference, a scalar kind or, on its own, an untyped descriptor
(`EndStandsFor`), and then the levels of the spine are put around it; or else it is at fault
(`EndAtFault`), and what is malformed is what is neither. The main statement, `ofJson_by_spine`, is
that reading follows this grammar in both directions, and that a property with a faulty descriptor
ends the resolving with a failure that names the schema and the property, however deep the fault
lies.
-/

namespace EntityTypings

namespace Descriptor

/-! ### Fields -/

/-- A field is empty: it is absent, `null` or the empty text. -/
def EmptyField (fields : List (String × Json)) (name : String) : Prop :=
  fields.lookup name = none ∨ fields.lookup name = some .null ∨
    fields.lookup name = some (.string "")

/-- The value of a field, `null` where the field is absent. -/
def fieldOrNull (fields : List (String × Json)) (name : String) : Json :=
  (fields.lookup name).getD .null

theorem textField_eq_none_iff {fields : List (String × Json)} {name : String} :
    textField fields name = .ok none ↔ EmptyField fields name := by
  unfold textField EmptyField
  cases hf : fields.lookup name with
  | none => simp
  | some j =>
    cases j with
    | null => simp
    | string s => by_cases hs : s = "" <;> simp [hs]
    | _ => simp

theorem textField_eq_some_iff {fields : List (String × Json)} {name text : String} :
    textField fields name = .ok (some text) ↔
      fields.lookup name = some (.string text) ∧ text ≠ "" := by
  unfold textField
  cases hf : fields.lookup name with
  | none => simp
  | some j =>
    cases j with
    | string s =>
      simp only [Except.ok.injEq, Option.some.injEq, Json.string.injEq, String.isEmpty_iff]
      by_cases hs : s = ""
      · rw [if_pos hs]
        simp only [reduceCtorEq, false_iff]
        rintro ⟨rfl, hne⟩
        exact hne hs
      · rw [if_neg hs, Option.some.injEq]
        exact ⟨fun h => ⟨h, h ▸ hs⟩, And.left⟩
    | _ => simp

/-- A field that is neither empty nor a text is malformed, and nothing else is wrong with fields. -/
theorem eq_malformed_of_textField {fields : List (String × Json)} {name : String}
    {fault : DescriptorFault} (h : textField fields name = .error fault) : fault = .malformed := by
  unfold textField at h
  split at h <;> cases h
  rfl

/-! ### Spines -/

/-- The value says that it is a sequence of a kind: it is no reference, and its type is the name of
the kind. -/
def IsLevel (fields : List (String × Json)) (k : SequenceKind) : Prop :=
  EmptyField fields "$ref" ∧ fields.lookup "type" = some (.string k.name)

/-- `Spine j kinds w`: following `items` from the value `j`, one passes sequences of the kinds
`kinds` and stops at the value `w`, which is `null` where there are no items. -/
inductive Spine : Json → List SequenceKind → Json → Prop
  /-- A sequence is passed. -/
  | level {fields : List (String × Json)} {k : SequenceKind} {kinds : List SequenceKind} {w : Json}
    (hlevel : IsLevel fields k) (hitems : Spine (fieldOrNull fields "items") kinds w) :
    Spine (.object fields) (k :: kinds) w
  /-- Anything else is the end. -/
  | last {w : Json} (hlast : ∀ fields k, w = .object fields → ¬IsLevel fields k) : Spine w [] w

theorem SequenceKind.name_injective {k k' : SequenceKind} (h : k.name = k'.name) : k = k' := by
  cases k <;> cases k' <;> first | rfl | exact absurd h (by decide)

theorem IsLevel.unique {fields : List (String × Json)} {k k' : SequenceKind}
    (h : IsLevel fields k) (h' : IsLevel fields k') : k = k' := by
  have hname := h.2.symm.trans h'.2
  rw [Option.some.injEq, Json.string.injEq] at hname
  exact SequenceKind.name_injective hname

/-- No value has two spines. -/
theorem Spine.unique {j w w' : Json} {kinds kinds' : List SequenceKind} (h : Spine j kinds w)
    (h' : Spine j kinds' w') : kinds' = kinds ∧ w' = w := by
  induction h generalizing kinds' w' with
  | level hlevel _ ih =>
    cases h' with
    | level hlevel' hitems' =>
      obtain ⟨rfl, rfl⟩ := ih hitems'
      exact ⟨by rw [hlevel'.unique hlevel], rfl⟩
    | last hlast => exact absurd hlevel (hlast _ _ rfl)
  | last hlast =>
    cases h' with
    | level hlevel' _ => exact absurd hlevel' (hlast _ _ rfl)
    | last _ => exact ⟨rfl, rfl⟩

theorem sizeOf_fieldOrNull_lt (fields : List (String × Json)) (name : String) :
    sizeOf (fieldOrNull fields name) < sizeOf (Json.object fields) := by
  unfold fieldOrNull
  cases hf : fields.lookup name with
  | none =>
    have hpos : 0 < sizeOf fields := by
      cases fields with
      | nil => exact Nat.one_pos
      | cons f rest =>
        simp only [List.cons.sizeOf_spec]
        omega
    simp only [Option.getD_none, Json.null.sizeOf_spec, Json.object.sizeOf_spec]
    omega
  | some j =>
    obtain ⟨before, after, hsplit, -⟩ := List.lookup_eq_some_iff.1 hf
    have hmem : (name, j) ∈ fields := by simp [hsplit]
    have hlt := List.sizeOf_lt_of_mem hmem
    simp at hlt ⊢
    omega

/-- Every value has a spine. -/
theorem exists_spine (j : Json) : ∃ kinds w, Spine j kinds w := by
  by_cases hlevel : ∃ fields k, j = .object fields ∧ IsLevel fields k
  · obtain ⟨fields, k, rfl, hk⟩ := hlevel
    have hlt := sizeOf_fieldOrNull_lt fields "items"
    obtain ⟨kinds, w, hitems⟩ := exists_spine (fieldOrNull fields "items")
    exact ⟨k :: kinds, w, .level hk hitems⟩
  · exact ⟨[], j, .last fun fields k hj hk => hlevel ⟨fields, k, hj, hk⟩⟩
termination_by sizeOf j

/-! ### Ends of spines -/

/-- The descriptor inside sequences of some kinds, the outermost first. -/
def nested (kinds : List SequenceKind) (d : Descriptor) : Descriptor := kinds.foldr sequence d

/-- What the value at the end of a spine stands for. -/
inductive EndStandsFor : Json → Descriptor → Prop
  /-- A reference to what `$ref` names, whatever else is there. -/
  | reference {fields : List (String × Json)} {target : String}
    (href : fields.lookup "$ref" = some (.string target)) (hne : target ≠ "") :
    EndStandsFor (.object fields) (.reference target)
  /-- A value of the kind that `type` names. -/
  | scalar {fields : List (String × Json)} {k : ScalarKind} (href : EmptyField fields "$ref")
    (htype : fields.lookup "type" = some (.string k.name)) :
    EndStandsFor (.object fields) (.scalar k)
  /-- Nothing is said. -/
  | untyped {fields : List (String × Json)} (href : EmptyField fields "$ref")
    (htype : EmptyField fields "type") : EndStandsFor (.object fields) .untyped

/-- The type that the end of a spine names is none of the vocabulary. -/
def NamesUnknownType (w : Json) (name : String) : Prop :=
  ∃ fields, w = .object fields ∧ EmptyField fields "$ref" ∧
    fields.lookup "type" = some (.string name) ∧ name ≠ "" ∧ ∀ k : Kind, k.name ≠ name

/-- What is wrong with the end of a spine with levels of the given kinds. -/
def EndAtFault (kinds : List SequenceKind) (w : Json) : DescriptorFault → Prop
  | .missingItems => kinds ≠ [] ∧ (w = .null ∨ EndStandsFor w .untyped)
  | .unknownType name => NamesUnknownType w name
  | .malformed =>
    (kinds ≠ [] → w ≠ .null) ∧ (∀ leaf, ¬EndStandsFor w leaf) ∧ ∀ name, ¬NamesUnknownType w name

/-! ### Reading an end -/

theorem Kind.ofName?_eq_none_iff {name : String} :
    Kind.ofName? name = none ↔ ∀ k : Kind, k.name ≠ name := by
  constructor
  · intro h k hk
    rw [Kind.ofName?_eq_some_iff.2 hk] at h
    cases h
  · intro h
    cases hk : Kind.ofName? name with
    | none => rfl
    | some k => exact absurd (Kind.ofName?_eq_some_iff.1 hk) (h k)

/-- A scalar or a sequence kind has a name that is not empty. -/
theorem Kind.name_ne_empty (k : Kind) : k.name ≠ "" := by
  rcases k with k | k <;> cases k <;> decide

theorem ofJson_of_endStandsFor {w : Json} {leaf : Descriptor} (h : EndStandsFor w leaf) :
    ofJson w = .ok leaf := by
  cases h with
  | reference href hne => rw [ofJson, textField_eq_some_iff.2 ⟨href, hne⟩]
  | scalar href htype =>
    rename_i fields k
    have htext := textField_eq_some_iff.2 ⟨htype, Kind.name_ne_empty (.scalar k)⟩
    have hkind : Kind.ofName? k.name = some (.scalar k) := Kind.ofName?_name (.scalar k)
    rw [ofJson, textField_eq_none_iff.2 href]
    simp only [htext, hkind]
  | untyped href htype =>
    rw [ofJson, textField_eq_none_iff.2 href]
    simp only [textField_eq_none_iff.2 htype]

theorem ofJson_of_namesUnknownType {w : Json} {name : String} (h : NamesUnknownType w name) :
    ofJson w = .error (.unknownType name) := by
  obtain ⟨fields, rfl, href, htype, hne, hname⟩ := h
  rw [ofJson, textField_eq_none_iff.2 href]
  simp only [textField_eq_some_iff.2 ⟨htype, hne⟩, Kind.ofName?_eq_none_iff.2 hname]

/-- A value that is no level is read as what it stands for, or its type is not known, or it is
malformed. -/
theorem ofJson_cases {w : Json} (hlast : ∀ fields k, w = .object fields → ¬IsLevel fields k) :
    (∃ leaf, EndStandsFor w leaf ∧ ofJson w = .ok leaf) ∨
      (∃ name, NamesUnknownType w name ∧ ofJson w = .error (.unknownType name)) ∨
      ofJson w = .error .malformed := by
  have hstands {leaf : Descriptor} (h : EndStandsFor w leaf) :
      ∃ leaf, EndStandsFor w leaf ∧ ofJson w = .ok leaf := ⟨leaf, h, ofJson_of_endStandsFor h⟩
  cases w with
  | object fields =>
    cases href : textField fields "$ref" with
    | error fault =>
      rw [eq_malformed_of_textField href] at href
      exact .inr (.inr (by rw [ofJson, href]))
    | ok target =>
      cases target with
      | some target =>
        obtain ⟨hlookup, hne⟩ := textField_eq_some_iff.1 href
        exact .inl (hstands (.reference hlookup hne))
      | none =>
        have hempty := textField_eq_none_iff.1 href
        cases htype : textField fields "type" with
        | error fault =>
          rw [eq_malformed_of_textField htype] at htype
          exact .inr (.inr (by simp only [ofJson, href, htype]))
        | ok name =>
          cases name with
          | none => exact .inl (hstands (.untyped hempty (textField_eq_none_iff.1 htype)))
          | some name =>
            obtain ⟨hlookup, hne⟩ := textField_eq_some_iff.1 htype
            cases hkind : Kind.ofName? name with
            | none =>
              have hunknown : NamesUnknownType (.object fields) name :=
                ⟨fields, rfl, hempty, hlookup, hne, Kind.ofName?_eq_none_iff.1 hkind⟩
              exact .inr (.inl ⟨name, hunknown, ofJson_of_namesUnknownType hunknown⟩)
            | some k =>
              obtain rfl := Kind.ofName?_eq_some_iff.1 hkind
              cases k with
              | scalar k => exact .inl (hstands (.scalar hempty hlookup))
              | sequence k => exact absurd ⟨hempty, hlookup⟩ (hlast fields k rfl)
  | _ => exact .inr (.inr (by simp [ofJson]))

/-! ### Reading along a spine -/

/-- What a value is read as in the place of items, where it has to be there and to be typed. -/
def readItems (j : Json) : Except DescriptorFault Descriptor :=
  if j.isNull then .error .missingItems else asItems (ofJson j)

/-- A level is read as a sequence of its items. -/
theorem ofJson_level {fields : List (String × Json)} {k : SequenceKind} (h : IsLevel fields k) :
    ofJson (.object fields) = (readItems (fieldOrNull fields "items")).map (.sequence k) := by
  have htext := textField_eq_some_iff.2 ⟨h.2, Kind.name_ne_empty (.sequence k)⟩
  have hkind : Kind.ofName? k.name = some (.sequence k) := Kind.ofName?_name (.sequence k)
  rw [ofJson, textField_eq_none_iff.2 h.1]
  simp only [htext, hkind, itemsOf_eq]
  unfold fieldOrNull
  cases fields.lookup "items" with
  | none => rfl
  | some j => cases j <;> rfl

/-- A sequence is typed, so it stands for itself in the place of items. -/
theorem asItems_map_sequence (r : Except DescriptorFault Descriptor) (k : SequenceKind) :
    asItems (r.map (.sequence k)) = r.map (.sequence k) := by
  cases r <;> rfl

/-- In the place of items, a value is read as the end of its spine inside the levels. -/
theorem readItems_of_spine {j w : Json} {kinds : List SequenceKind} (h : Spine j kinds w) :
    readItems j = (readItems w).map (nested kinds) := by
  induction h with
  | @last w _ => cases readItems w <;> rfl
  | @level fields k kinds w hlevel _ ih =>
    calc readItems (.object fields)
        = asItems (ofJson (.object fields)) := rfl
      _ = ((readItems w).map (nested kinds)).map (.sequence k) := by
          rw [ofJson_level hlevel, asItems_map_sequence, ih]
      _ = (readItems w).map (nested (k :: kinds)) := by cases readItems w <;> rfl

/-- So is a value that is itself a level. -/
theorem ofJson_of_spine {j w : Json} {kinds : List SequenceKind} (h : Spine j kinds w)
    (hkinds : kinds ≠ []) : ofJson j = (readItems w).map (nested kinds) := by
  cases h with
  | last _ => exact absurd rfl hkinds
  | level hlevel hitems =>
    rw [ofJson_level hlevel, readItems_of_spine hitems]
    cases readItems w <;> rfl

/-- A spine ends where there is no level. -/
theorem Spine.not_isLevel {j w : Json} {kinds : List SequenceKind} (h : Spine j kinds w) :
    ∀ fields k, w = .object fields → ¬IsLevel fields k := by
  induction h with
  | level _ _ ih => exact ih
  | last hlast => exact hlast

section

variable {j w : Json} {kinds : List SequenceKind}

/-- An end is read as what it stands for. -/
theorem ofJson_end_eq_ok_iff (h : Spine j kinds w) {leaf : Descriptor} :
    ofJson w = .ok leaf ↔ EndStandsFor w leaf := by
  refine ⟨fun hok => ?_, ofJson_of_endStandsFor⟩
  rcases ofJson_cases h.not_isLevel with ⟨leaf', hleaf, heq⟩ | ⟨name, -, heq⟩ | heq
  · rw [heq] at hok
    cases hok
    exact hleaf
  all_goals
    rw [heq] at hok
    cases hok

theorem ofJson_end_eq_unknownType_iff (h : Spine j kinds w) {name : String} :
    ofJson w = .error (.unknownType name) ↔ NamesUnknownType w name := by
  refine ⟨fun herror => ?_, ofJson_of_namesUnknownType⟩
  rcases ofJson_cases h.not_isLevel with ⟨leaf, -, heq⟩ | ⟨name', hname, heq⟩ | heq
  · rw [heq] at herror
    cases herror
  · rw [heq] at herror
    cases herror
    exact hname
  · rw [heq] at herror
    cases herror

theorem ofJson_end_ne_missingItems (h : Spine j kinds w) : ofJson w ≠ .error .missingItems := by
  rcases ofJson_cases h.not_isLevel with ⟨leaf, -, heq⟩ | ⟨name, -, heq⟩ | heq <;> simp [heq]

/-- An end on its own is malformed exactly if it stands for nothing and its type is not unknown. -/
theorem ofJson_end_eq_malformed_iff (h : Spine j kinds w) :
    ofJson w = .error .malformed ↔
      (∀ leaf, ¬EndStandsFor w leaf) ∧ ∀ name, ¬NamesUnknownType w name := by
  simp only [← ofJson_end_eq_ok_iff h, ← ofJson_end_eq_unknownType_iff h]
  have hitems := ofJson_end_ne_missingItems h
  cases hw : ofJson w with
  | ok leaf => simp
  | error fault =>
    cases fault with
    | missingItems => exact absurd hw hitems
    | unknownType name => simp
    | malformed => simp

/-- In the place of items, an end is read as what it stands for, if that is typed. -/
theorem readItems_eq_ok_iff (h : Spine j kinds w) {leaf : Descriptor} :
    readItems w = .ok leaf ↔ EndStandsFor w leaf ∧ leaf ≠ .untyped := by
  rw [← ofJson_end_eq_ok_iff h, readItems]
  split
  · rename_i hnull
    rw [Json.isNull_iff.1 hnull]
    simp [ofJson]
  · exact asItems_eq_ok_iff

/-- In the place of items, an end can be at fault because nothing is there. -/
theorem readItems_eq_error_iff (h : Spine j kinds w) (hkinds : kinds ≠ [])
    {fault : DescriptorFault} : readItems w = .error fault ↔ EndAtFault kinds w fault := by
  by_cases hnull : w = .null
  · -- nothing is there, so nothing is said and no type is named
    subst hnull
    have hnames (name : String) : ¬NamesUnknownType .null name := by
      rintro ⟨fields, hobject, -⟩
      cases hobject
    cases fault <;> simp [readItems, Json.isNull, EndAtFault, hkinds, hnames]
  · have hread : readItems w = asItems (ofJson w) := if_neg (by simpa using hnull)
    cases fault with
    | missingItems =>
      simp only [EndAtFault, hread, hkinds, hnull, false_or, ne_eq, not_false_eq_true, true_and,
        ← ofJson_end_eq_ok_iff h]
      have hitems := ofJson_end_ne_missingItems h
      cases hw : ofJson w with
      | ok leaf => cases leaf <;> simp [asItems]
      | error fault => simpa [asItems, hw] using hitems
    | unknownType name =>
      simp only [EndAtFault, hread, ← ofJson_end_eq_unknownType_iff h]
      cases hw : ofJson w with
      | ok leaf => cases leaf <;> simp [asItems]
      | error fault => simp [asItems]
    | malformed =>
      have hmalformed := ofJson_end_eq_malformed_iff h
      simp only [EndAtFault, hread, hkinds, hnull, ne_eq, not_false_eq_true, true_implies, true_and,
        ← hmalformed]
      cases hw : ofJson w with
      | ok leaf => cases leaf <;> simp [asItems]
      | error fault => simp [asItems]

end

/-! ### Reading any value -/

section

variable {j w : Json} {kinds : List SequenceKind}

/-- What is read is what the end of the spine stands for, inside the levels. -/
theorem ofJson_eq_ok_iff (h : Spine j kinds w) {d : Descriptor} :
    ofJson j = .ok d ↔
      ∃ leaf, EndStandsFor w leaf ∧ (leaf = .untyped → kinds = []) ∧ d = nested kinds leaf := by
  by_cases hkinds : kinds = []
  · subst hkinds
    cases h with
    | last hlast => simp [ofJson_end_eq_ok_iff (.last hlast), nested]
  · rw [ofJson_of_spine h hkinds]
    constructor
    · intro hok
      cases hw : readItems w with
      | error fault => simp [hw, Except.map] at hok
      | ok leaf =>
        obtain ⟨hleaf, htyped⟩ := (readItems_eq_ok_iff h).1 hw
        rw [hw] at hok
        cases hok
        exact ⟨leaf, hleaf, fun huntyped => absurd huntyped htyped, rfl⟩
    · rintro ⟨leaf, hleaf, huntyped, rfl⟩
      have hread := (readItems_eq_ok_iff h).2 ⟨hleaf, fun e => hkinds (huntyped e)⟩
      rw [hread]
      rfl

/-- What is at fault is the end of the spine. -/
theorem ofJson_eq_error_iff (h : Spine j kinds w) {fault : DescriptorFault} :
    ofJson j = .error fault ↔ EndAtFault kinds w fault := by
  by_cases hkinds : kinds = []
  · subst hkinds
    cases h with
    | last hlast =>
      have h : Spine j [] j := .last hlast
      cases fault with
      | missingItems => simpa [EndAtFault] using ofJson_end_ne_missingItems h
      | unknownType name => exact ofJson_end_eq_unknownType_iff h
      | malformed => simpa [EndAtFault] using ofJson_end_eq_malformed_iff h
  · rw [ofJson_of_spine h hkinds, ← readItems_eq_error_iff h hkinds]
    cases readItems w <;> simp [Except.map]

end

end Descriptor

/-- **Reading a descriptor follows the grammar.** Every value has one spine. It is read as a
descriptor exactly if the end of the spine is a reference, a scalar kind or, where the spine has no
levels, untyped, and then as this inside the levels. Otherwise its fault is that of the end; and
resolving a property that it describes fails with this fault, for the schema and the property. -/
theorem Descriptor.ofJson_by_spine (j : Json) :
    ∃ kinds w, Spine j kinds w ∧ (∀ kinds' w', Spine j kinds' w' → kinds' = kinds ∧ w' = w) ∧
      (∀ d, ofJson j = .ok d ↔
        ∃ leaf, EndStandsFor w leaf ∧ (leaf = .untyped → kinds = []) ∧ d = nested kinds leaf) ∧
      (∀ fault, ofJson j = .error fault ↔ EndAtFault kinds w fault) ∧
      ∀ fault, ofJson j = .error fault →
        ∀ (s : Schema) (name : String) (rest : List (String × Json)),
        (s.resolveAll ((name, j) :: rest)).members = .error (.property s.displayId name fault) := by
  obtain ⟨kinds, w, hspine⟩ := exists_spine j
  refine ⟨kinds, w, hspine, fun kinds' w' h => hspine.unique h, fun d => ofJson_eq_ok_iff hspine,
    fun fault => ofJson_eq_error_iff hspine, fun fault hfault s name rest => ?_⟩
  have hname : s.fault? (name, j) = some (.property s.displayId name fault) :=
    Schema.fault?_eq_some_iff.2 ⟨fault, hfault, rfl⟩
  rw [Schema.resolveAll_cons_of_fault hname]

namespace Descriptor

/-- Items of a type that is none of the vocabulary. -/
def bogusItems : Json := .object [("$ref", .null), ("type", .string "bogus")]

/-- A list of lists with keys of such items. -/
def bogusLists : Json :=
  .object [("type", .string "array"), ("items", .object
    [("$ref", .string ""), ("type", .string "mapped_array"), ("items", bogusItems)])]

/-- The fault lies two levels deep and is that of the property. -/
theorem ofJson_bogusLists :
    Spine bogusLists [.array, .mappedArray] bogusItems ∧
      ofJson bogusLists = .error (.unknownType "bogus") ∧
      ∀ (s : Schema) (rest : List (String × Json)),
        (s.resolveAll (("notes", bogusLists) :: rest)).members =
          .error (.property s.displayId "notes" (.unknownType "bogus")) := by
  obtain ⟨kinds, w, hspine, hunique, -, herror, hproperty⟩ := ofJson_by_spine bogusLists
  have hlast : ∀ fields k, bogusItems = .object fields → ¬IsLevel fields k := by
    rintro fields k heq ⟨-, htype⟩
    cases heq
    have hname : Json.string "bogus" = .string k.name := Option.some.inj htype
    cases k <;> exact absurd (Json.string.inj hname) (by decide)
  have hlevels : Spine bogusLists [.array, .mappedArray] bogusItems :=
    .level ⟨.inl rfl, rfl⟩ (.level ⟨.inr (.inr rfl), rfl⟩ (.last hlast))
  obtain ⟨rfl, rfl⟩ := hunique _ _ hlevels
  have hunknown : NamesUnknownType bogusItems "bogus" := by
    refine ⟨_, rfl, .inr (.inl rfl), rfl, by decide, fun k => ?_⟩
    rcases k with k | k <;> cases k <;> decide
  have hfault : ofJson bogusLists = .error (.unknownType "bogus") := (herror _).2 hunknown
  exact ⟨hspine, hfault, fun s rest => hproperty _ hfault s "notes" rest⟩

end Descriptor

end EntityTypings
