import EntityTypings.Response

/-!
# Records in every layout

A list of records can be put into a response in three layouts (`Layout.around`), and the layout is
not marked: it is found by trying one after the other. Here records that were serialised are read
back from each of them, in order and with every field as it was: no layout is taken for another,
and neither are records.

Free-form JSON, which descriptors and default values are, is read into its canonical form, so a
record can only be read back if its free-form parts are canonical (`Schema.IsCanonical`,
`AttributeConfiguration.IsCanonical`). Nothing else is ever read from a response
(`isCanonical_of_schemas`, `isCanonical_of_configurations`), since the canonical form is canonical
(`canonical_canonical`).

The main statement is `read_back_in_every_layout`. Writing and reading the text itself is left out
of it: it speaks of any text that denotes the value.
-/

namespace EntityTypings

namespace Json

/-! ### Canonical values -/

/-- Fields with canonical values stay as they are. -/
theorem canonicalFields_eq_self {fields : List (String × Json)}
    (h : ∀ e ∈ fields, e.2.canonical = e.2) : canonicalFields fields = fields := by
  induction fields with
  | nil => rfl
  | cons f rest ih =>
    obtain ⟨name, j⟩ := f
    rw [canonicalFields, h (name, j) List.mem_cons_self,
      ih fun e he => h e (List.mem_cons_of_mem _ he)]

mutual

/-- The canonical form of a value is canonical. -/
theorem canonical_canonical : (j : Json) → j.canonical.canonical = j.canonical
  | null | bool _ | integer _ | real _ | string _ => rfl
  | list items => by
    rw [canonical, canonical, canonicalItems_canonicalItems items]
  | object fields => by
    have hvalues : ∀ e ∈ (NameMap.ofList (canonicalFields fields)).entries, e.2.canonical = e.2 :=
      fun e he => canonical_of_mem_canonicalFields fields e (NameMap.mem_of_mem_ofList he)
    rw [canonical, canonical, canonicalFields_eq_self hvalues, NameMap.ofList_entries]

/-- So are those of the values of a list. -/
theorem canonicalItems_canonicalItems :
    (items : List Json) → canonicalItems (canonicalItems items) = canonicalItems items
  | [] => rfl
  | j :: rest => by
    rw [canonicalItems, canonicalItems, canonical_canonical j, canonicalItems_canonicalItems rest]

/-- So are those of the values of fields. -/
theorem canonical_of_mem_canonicalFields :
    (fields : List (String × Json)) → ∀ e ∈ canonicalFields fields, e.2.canonical = e.2
  | [], _, he => by simp [canonicalFields] at he
  | (_, j) :: rest, e, he => by
    rcases List.mem_cons.1 he with rfl | hrest
    · exact canonical_canonical j
    · exact canonical_of_mem_canonicalFields rest e hrest

end

end Json

/-! ### Records one by one -/

open Json Json.Record

namespace Schema

/-- The descriptors of the properties are canonical, as those of a schema that was read are. -/
def IsCanonical (s : Schema) : Prop := ∀ e ∈ s.properties.entries, e.2.canonical = e.2

/-- A schema is read back from its serialisation. -/
theorem ofJson?_toJson {s : Schema} (h : s.IsCanonical) : ofJson? s.toJson = some s := by
  obtain ⟨id, properties, base, aliasOf, immutable, computed, required, primaryKey⟩ := s
  have hid : Record.optional asString? (some (orNull (id.map .string))) = some id := by
    cases id <;> rfl
  have hproperties : nullable .empty propertiesOfJson? (some (.object properties.entries)) =
      some properties := by
    show some (NameMap.ofList (canonicalFields properties.entries)) = some properties
    rw [canonicalFields_eq_self h, NameMap.ofList_entries]
  have htexts (texts : List String) :
      nullable [] asStrings? (some (strings texts)) = some texts := by
    show ((strings texts).asStrings?.map some).map (·.getD []) = some texts
    rw [asStrings?_strings]
    rfl
  have hbase (b : String) :
      Record.optional referenceOfJson? (some (.object [("$ref", .string b)])) = some (some b) := rfl
  have halias (a : Alias) : Record.optional Alias.ofJson? (some a.toJson) = some (some a) := by
    cases a <;> rfl
  -- Base and alias are left out where they are missing, so the fields differ from case to case.
  cases base <;> cases aliasOf <;>
    simp [toJson, ofJson?, byNameOrPosition, byName, fieldNames, field?, hid, hproperties, htexts,
      hbase, halias]

/-- What is read as properties is canonical. -/
theorem canonical_of_propertiesOfJson? {value : Option Json} {properties : NameMap Json}
    (h : nullable .empty propertiesOfJson? value = some properties) :
    ∀ e ∈ properties.entries, e.2.canonical = e.2 := by
  have hempty : ∀ e ∈ (NameMap.empty : NameMap Json).entries, e.2.canonical = e.2 :=
    fun e he => absurd he List.not_mem_nil
  match value with
  | none =>
    cases h
    exact hempty
  | some .null =>
    cases h
    exact hempty
  | some (.object fields) =>
    cases h
    exact fun e he => canonical_of_mem_canonicalFields fields e (NameMap.mem_of_mem_ofList he)

/-- What is read as a schema is canonical. -/
theorem isCanonical_of_ofJson? {j : Json} {s : Schema} (h : ofJson? j = some s) :
    s.IsCanonical := by
  simp only [ofJson?, Option.bind_eq_bind, Option.bind_eq_some_iff] at h
  obtain ⟨values, -, h⟩ := h
  split at h
  · simp only [Option.bind_eq_some_iff] at h
    obtain ⟨_, -, properties, hproperties, _, -, _, -, _, -, _, -, _, -, _, -, h⟩ := h
    cases h
    exact canonical_of_propertiesOfJson? hproperties
  · cases h

end Schema

namespace AttributeConfiguration

/-- The default value is canonical, as that of a configuration that was read is. -/
def IsCanonical (a : AttributeConfiguration) : Prop := a.defaultValue.canonical = a.defaultValue

/-- A configuration is read back from its serialisation. -/
theorem ofJson?_toJson {a : AttributeConfiguration} (h : a.IsCanonical) :
    ofJson? a.toJson = some a := by
  obtain ⟨key, label, entityType, objectType, isHierarchical, kind, value⟩ := a
  have hname (n : String) : nameOfJson? (.object [("name", .string n)]) = some n := rfl
  have hobject (n : String) :
      Record.optional nameOfJson? (some (.object [("name", .string n)])) = some (some n) := rfl
  have hvalue : value.canonical = value := h
  cases objectType <;>
    simp [toJson, ofJson?, byNameOrPosition, byName, fieldNames, field?, hname, hobject, hvalue,
      asBool?]

/-- What is read as a default value is canonical. -/
theorem canonical_of_defaulted {value : Option Json} {j : Json}
    (h : defaulted null (fun j => some j.canonical) value = some j) : j.canonical = j := by
  match value with
  | none =>
    cases h
    rfl
  | some given =>
    cases h
    exact canonical_canonical given

/-- What is read as a configuration is canonical. -/
theorem isCanonical_of_ofJson? {j : Json} {a : AttributeConfiguration} (h : ofJson? j = some a) :
    a.IsCanonical := by
  simp only [ofJson?, Option.bind_eq_bind, Option.bind_eq_some_iff] at h
  obtain ⟨values, -, h⟩ := h
  split at h
  · simp only [Option.bind_eq_some_iff] at h
    obtain ⟨_, -, _, -, _, -, _, -, _, -, _, -, value, hvalue, h⟩ := h
    cases h
    exact canonical_of_defaulted hvalue
  · cases h

end AttributeConfiguration

/-! ### Layouts -/

namespace Response

/-- The layouts that a response can have. -/
inductive Layout where
  /-- The list of the records. -/
  | flat
  /-- A list of one batch. -/
  | batched
  /-- An object with the list under `data`. -/
  | query
  deriving DecidableEq, Repr

/-- The response with the given records. -/
def Layout.around (items : List Json) : Layout → Json
  | flat => .list items
  | batched => .list [.list items]
  | query => .object [("data", .list items)]

variable {α : Type} {read : Json → Option α} {write : α → Json}

/-- Values that are read back one by one are read back as a list. -/
theorem listOf?_map {rs : List α} (h : ∀ r ∈ rs, read (write r) = some r) :
    (Json.list (rs.map write)).listOf? read = some rs := by
  have hmap : ∀ l : List α, (∀ r ∈ l, read (write r) = some r) →
      (l.map write).mapM read = some l := by
    intro l
    induction l with
    | nil => exact fun _ => rfl
    | cons r rest ih =>
      intro hl
      rw [List.map_cons, List.mapM_cons, hl r List.mem_cons_self,
        ih fun x hx => hl x (List.mem_cons_of_mem _ hx)]
      rfl
  exact hmap rs h

/-- No record is taken for a batch, so that a plain list is not taken for a list of batches
unless it is empty. -/
theorem batched?_flat {rs : List α} (hne : rs ≠ []) (hobject : ∀ r, (write r).asList? = none) :
    batched? read (.list (rs.map write)) = none := by
  obtain ⟨r, rest, rfl⟩ := List.exists_cons_of_ne_nil hne
  have hrecord : (write r).listOf? read = none := by
    rw [listOf?, hobject]
    rfl
  show ((((r :: rest).map write).mapM (listOf? read)).map (·.headD [])) = none
  rw [List.map_cons, List.mapM_cons, hrecord]
  rfl

/-- Records that are read back one by one, and are no lists, are read back from each layout. -/
theorem records?_around {rs : List α} (hread : ∀ r ∈ rs, read (write r) = some r)
    (hobject : ∀ r, (write r).asList? = none) (layout : Layout) :
    records? read (layout.around (rs.map write)) = some rs := by
  have hlist : (Json.list (rs.map write)).listOf? read = some rs := listOf?_map hread
  cases layout with
  | flat =>
    by_cases hne : rs = []
    · subst hne
      rfl
    · have hflat : flat? read (.list (rs.map write)) = some rs := hlist
      rw [Layout.around, records?, batched?_flat hne hobject, hflat]
      rfl
  | batched =>
    have hbatched : batched? read (.list [.list (rs.map write)]) = some rs := by
      show ([Json.list (rs.map write)].mapM (listOf? read)).map (·.headD []) = some rs
      rw [List.mapM_cons, hlist]
      rfl
    rw [Layout.around, records?, hbatched]
    rfl
  | query =>
    -- An object is no list, neither of batches nor of records.
    have hquery : query? read (.object [("data", .list (rs.map write))]) = some rs := by
      show Record.required (listOf? read) (some (.list (rs.map write))) = some rs
      rw [required_some, hlist]
    exact hquery

/-- So they are from a text that denotes the response. -/
theorem parse_around {rs : List α} {text : String} {layout : Layout}
    (hread : ∀ r ∈ rs, read (write r) = some r) (hobject : ∀ r, (write r).asList? = none)
    (htext : Json.parse text = some (layout.around (rs.map write))) :
    parse read text = .ok rs := by
  unfold Json.parse parseWithin at htext
  split at htext
  · rename_i j hstart
    cases htext
    rw [parse, hstart]
    simp only [records?_around hread hobject, List.isEmpty_nil, if_true]
  · cases htext

/-- What is read as a list was read one by one. -/
theorem exists_of_mem_listOf? {j : Json} {rs : List α} (h : j.listOf? read = some rs) {r : α}
    (hr : r ∈ rs) : ∃ item, read item = some r := by
  have hmap : ∀ (items : List Json) (rs : List α), items.mapM read = some rs →
      ∀ r ∈ rs, ∃ item, read item = some r := by
    intro items
    induction items with
    | nil =>
      intro rs h r hr
      cases h
      cases hr
    | cons item rest ih =>
      intro rs h r hr
      simp only [List.mapM_cons, Option.bind_eq_bind, Option.bind_eq_some_iff] at h
      obtain ⟨first, hfirst, others, hothers, h⟩ := h
      cases h
      rcases List.mem_cons.1 hr with rfl | hr
      · exact ⟨item, hfirst⟩
      · exact ih others hothers r hr
  simp only [listOf?, Option.bind_eq_bind, Option.bind_eq_some_iff] at h
  obtain ⟨items, -, h⟩ := h
  exact hmap items rs h r hr

/-- Each record of a response, whatever its layout, was read from some value. -/
theorem exists_of_mem_records? {j : Json} {rs : List α} (h : records? read j = some rs) {r : α}
    (hr : r ∈ rs) : ∃ item, read item = some r := by
  simp only [records?, Option.orElse_eq_or, Option.or_eq_some_iff] at h
  rcases h with hbatched | ⟨-, hflat | ⟨-, hquery⟩⟩
  · obtain ⟨batches, hbatches, rfl⟩ := Option.map_eq_some_iff.1 hbatched
    cases batches with
    | nil => cases hr
    | cons batch rest =>
      obtain ⟨item, hitem⟩ := exists_of_mem_listOf? hbatches (r := batch) List.mem_cons_self
      exact exists_of_mem_listOf? hitem hr
  · exact exists_of_mem_listOf? hflat hr
  · simp only [query?, Option.bind_eq_bind, Option.bind_eq_some_iff] at hquery
    obtain ⟨values, -, hquery⟩ := hquery
    split at hquery
    · obtain ⟨data, -, hdata⟩ := Option.bind_eq_some_iff.1 hquery
      exact exists_of_mem_listOf? hdata hr
    · cases hquery

/-- So is each record of a response given as text. -/
theorem exists_of_mem_parse {text : String} {rs : List α} (h : parse read text = .ok rs) {r : α}
    (hr : r ∈ rs) : ∃ item, read item = some r := by
  unfold parse at h
  split at h
  · cases h
  · split at h
    · cases h
    · rename_i hrecords
      split at h
      · cases h
        exact exists_of_mem_records? hrecords hr
      · cases h

/-- The schemas of a response are canonical. -/
theorem isCanonical_of_schemas {text : String} {ss : List Schema} (h : schemas text = .ok ss) :
    ∀ s ∈ ss, s.IsCanonical := by
  intro s hs
  obtain ⟨j, hj⟩ := exists_of_mem_parse h hs
  exact Schema.isCanonical_of_ofJson? hj

/-- The configurations of a response are canonical. -/
theorem isCanonical_of_configurations {text : String} {attributes : List AttributeConfiguration}
    (h : configurations text = .ok attributes) : ∀ a ∈ attributes, a.IsCanonical := by
  intro a ha
  obtain ⟨j, hj⟩ := exists_of_mem_parse h ha
  exact AttributeConfiguration.isCanonical_of_ofJson? hj

/-! ### Reading back -/

/-- **Layouts lose nothing and can be interchanged.** In whichever layout serialised schemas or
configurations of custom attributes are put into a response, these are what is read from a text
that denotes it, in order and with all their fields. Their free-form parts have to be canonical,
as those of all records are that a response can hold. -/
theorem read_back_in_every_layout (layout : Layout) (text : String) :
    (∀ ss : List Schema, (∀ s ∈ ss, s.IsCanonical) →
      Json.parse text = some (layout.around (ss.map Schema.toJson)) → schemas text = .ok ss) ∧
    (∀ attributes : List AttributeConfiguration, (∀ a ∈ attributes, a.IsCanonical) →
      Json.parse text = some (layout.around (attributes.map AttributeConfiguration.toJson)) →
        configurations text = .ok attributes) ∧
    (∀ ss, schemas text = .ok ss → ∀ s ∈ ss, s.IsCanonical) ∧
    (∀ attributes, configurations text = .ok attributes → ∀ a ∈ attributes, a.IsCanonical) := by
  refine ⟨?_, ?_, fun _ => isCanonical_of_schemas, fun _ => isCanonical_of_configurations⟩
  · intro ss hcanonical htext
    exact parse_around (fun s hs => Schema.ofJson?_toJson (hcanonical s hs)) (fun _ => rfl) htext
  · intro attributes hcanonical htext
    exact parse_around (fun a ha => AttributeConfiguration.ofJson?_toJson (hcanonical a ha))
      (fun _ => rfl) htext

/-- A schema with a base and an alias, without an id, and with a property that is `null`. -/
def namelessSchema : Schema :=
  ⟨none, ⟨[("note", .null)], List.pairwise_singleton _ _⟩, some "Thing", some (.record "Task"),
    ["note"], [], [], []⟩

/-- A response with this schema under `data`. -/
def namelessResponse : String :=
  "\x7b\"data\":[\x7b\"id\":null,\"properties\":\x7b\"note\":null\x7d," ++
  "\"$mixin\":\x7b\"$ref\":\"Thing\"\x7d,\"alias_for\":\x7b\"id\":\"Task\"\x7d," ++
  "\"immutable\":[\"note\"],\"computed\":[],\"required\":[],\"primary_key\":[]\x7d]\x7d"

/-- An attribute of one object type, whose default is `null`. -/
def shotAttribute : AttributeConfiguration := ⟨"fps", "", "task", some "Shot", true, "text", .null⟩

/-- A response with this attribute in a batch. -/
def shotResponse : String :=
  "[[\x7b\"key\":\"fps\",\"label\":\"\",\"entity_type\":\"task\"," ++
  "\"object_type\":\x7b\"name\":\"Shot\"\x7d,\"is_hierarchical\":true," ++
  "\"type\":\x7b\"name\":\"text\"\x7d,\"default\":null\x7d]]"

/-- The characters of a text in three parts. -/
private theorem toList_of_parts {first second third : List Char} :
    (String.ofList first ++ String.ofList second ++ String.ofList third).toList =
      first ++ second ++ third := by
  simp

set_option maxRecDepth 20000 in
theorem read_back_nameless :
    namelessSchema.IsCanonical ∧ shotAttribute.IsCanonical ∧
      Json.parse namelessResponse = some (.object [("data", .list [namelessSchema.toJson])]) ∧
      Json.parse shotResponse = some (.list [.list [shotAttribute.toJson]]) ∧
      schemas namelessResponse = .ok [namelessSchema] ∧
      configurations shotResponse = .ok [shotAttribute] := by
  have hschema : namelessSchema.IsCanonical := fun e he => by
    cases List.mem_singleton.1 he
    rfl
  have hattribute : shotAttribute.IsCanonical := rfl
  have hquery : Json.parse namelessResponse =
      some (.object [("data", .list [namelessSchema.toJson])]) := by
    have hchars : namelessResponse.toList = _ := toList_of_parts
    rw [Json.parse, parseWithin, parseStart, hchars]
    rfl
  have hbatched : Json.parse shotResponse = some (.list [.list [shotAttribute.toJson]]) := by
    have hchars : shotResponse.toList = _ := toList_of_parts
    rw [Json.parse, parseWithin, parseStart, hchars]
    rfl
  obtain ⟨hread, -⟩ := read_back_in_every_layout .query namelessResponse
  obtain ⟨-, hreadAttribute, -⟩ := read_back_in_every_layout .batched shotResponse
  exact ⟨hschema, hattribute, hquery, hbatched,
    hread [namelessSchema] (List.forall_mem_singleton.2 hschema) hquery,
    hreadAttribute [shotAttribute] (List.forall_mem_singleton.2 hattribute) hbatched⟩

end Response

end EntityTypings
