import EntityTypings.Proofs.CompactTexts
import EntityTypings.Response

/-!
# Decimals of what is read

The decimals in a value are told by their texts only if they are reduced. Here it is shown that all
are that the reader of JSON makes: its decimals come from rounding alone
(`isReduced_of_parseStart`). Making a value canonical, finding a field of a record and finding the
records of a response bring in no other decimals. So the default values of all configurations that a
response gives are reduced (`isReduced_of_configurations`).
-/

namespace EntityTypings

namespace Json

namespace Reader

/-! ### Numbers -/

theorem isReduced_realOf {negative : Bool} {magnitude : Option Binary64} {j : Json}
    (h : realOf negative magnitude = some j) : j.IsReduced := by
  obtain ⟨x, -, rfl⟩ := Option.map_eq_some_iff.1 h
  intro d hd
  rw [List.mem_singleton.1 hd]
  exact x.isReduced_toDecimal .toEven negative

theorem isReduced_integerValue {negative : Bool} {whole : List Nat} {j : Json}
    (h : integerValue negative whole = some j) : j.IsReduced := by
  unfold integerValue at h
  split at h
  · split at h
    · cases h
      exact fun _ hd => absurd hd List.not_mem_nil
    · split at h
      · cases h
        exact fun _ hd => absurd hd List.not_mem_nil
      · exact isReduced_realOf h
  · exact isReduced_realOf h

theorem isReduced_number {text rest : List Char} {j : Json} (h : number text = some (j, rest)) :
    j.IsReduced := by
  have hunsigned {negative : Bool} {text : List Char}
      (h : unsignedNumber negative text = some (j, rest)) : j.IsReduced := by
    simp only [unsignedNumber, Option.bind_eq_bind, Option.bind_eq_some_iff] at h
    obtain ⟨_, -, _, -, _, -, h⟩ := h
    split at h
    · obtain ⟨value, hvalue, h⟩ := Option.bind_eq_some_iff.1 h
      cases h
      exact isReduced_integerValue hvalue
    · obtain ⟨value, hvalue, h⟩ := Option.bind_eq_some_iff.1 h
      cases h
      exact isReduced_realOf hvalue
  unfold number at h
  split at h
  · exact hunsigned h
  · exact hunsigned h

/-! ### Values -/

/-- What a value, the elements of a list or the fields of an object are read as is reduced. -/
theorem isReduced_read (budget : Nat) :
    (∀ {depth text j rest}, value budget depth text = some (j, rest) → j.IsReduced) ∧
    (∀ {depth text js rest}, items budget depth text = some (js, rest) →
      ∀ d ∈ realsOfItems js, d.IsReduced) ∧
    ∀ {depth text fs rest}, fields budget depth text = some (fs, rest) →
      ∀ d ∈ realsOfFields fs, d.IsReduced := by
  induction budget with
  | zero =>
    refine ⟨fun h => ?_, fun h => ?_, fun h => ?_⟩
    all_goals cases h
  | succ budget ih =>
    obtain ⟨ihvalue, ihitems, ihfields⟩ := ih
    have hplain {d : Decimal} : d ∈ ([] : List Decimal) → d.IsReduced := fun hd => nomatch hd
    refine ⟨fun h => ?_, fun h => ?_, fun h => ?_⟩
    -- Words and strings have no decimals in them, lists and objects those of their elements.
    · unfold value at h
      split at h
      · cases h
        exact fun _ => hplain
      · cases h
        exact fun _ => hplain
      · cases h
        exact fun _ => hplain
      · obtain ⟨_, -, h⟩ := Option.map_eq_some_iff.1 h
        cases h
        exact fun _ => hplain
      · split at h
        · cases h
        · split at h
          · cases h
            exact fun _ => hplain
          · obtain ⟨_, hitems, h⟩ := Option.map_eq_some_iff.1 h
            cases h
            exact ihitems hitems
      · split at h
        · cases h
        · split at h
          · cases h
            exact fun _ => hplain
          · obtain ⟨_, hfields, h⟩ := Option.map_eq_some_iff.1 h
            cases h
            exact ihfields hfields
      · exact isReduced_number h
    · unfold items at h
      split at h
      · cases h
      · rename_i hvalue
        split at h
        · obtain ⟨_, hitems, h⟩ := Option.map_eq_some_iff.1 h
          cases h
          exact List.forall_mem_append.2 ⟨ihvalue hvalue, ihitems hitems⟩
        · cases h
          exact List.forall_mem_append.2 ⟨ihvalue hvalue, fun _ => hplain⟩
        · cases h
    · unfold fields at h
      split at h
      · cases h
      · split at h
        · cases h
        · rename_i hvalue
          split at h
          · obtain ⟨_, hfields, h⟩ := Option.map_eq_some_iff.1 h
            cases h
            exact List.forall_mem_append.2 ⟨ihvalue hvalue, ihfields hfields⟩
          · cases h
            exact List.forall_mem_append.2 ⟨ihvalue hvalue, fun _ => hplain⟩
          · cases h

end Reader

/-- **What a text starts with is read as a reduced value.** -/
theorem isReduced_of_parseStart {nesting : Nat} {text : String} {j : Json} {rest : List Char}
    (h : parseStart nesting text = some (j, rest)) : j.IsReduced := by
  obtain ⟨_, hvalue, h⟩ := Option.map_eq_some_iff.1 h
  cases h
  exact (Reader.isReduced_read _).1 hvalue

/-! ### Parts of values -/

/-- The decimals of fields are those of their values. -/
theorem mem_realsOfFields {fields : List (String × Json)} {d : Decimal} :
    d ∈ realsOfFields fields ↔ ∃ f ∈ fields, d ∈ f.2.reals := by
  induction fields with
  | nil => simp [realsOfFields]
  | cons f rest ih => simp [realsOfFields, ih]

theorem mem_realsOfItems {items : List Json} {d : Decimal} :
    d ∈ realsOfItems items ↔ ∃ j ∈ items, d ∈ j.reals := by
  induction items with
  | nil => simp [realsOfItems]
  | cons j rest ih => simp [realsOfItems, ih]

mutual

/-- Making a value canonical brings in no decimals. -/
theorem reals_canonical_subset : (j : Json) → j.canonical.reals ⊆ j.reals
  | null | bool _ | integer _ | real _ | string _ => List.Subset.refl _
  | list items => by
    rw [canonical, reals, reals]
    exact realsOfItems_canonicalItems_subset items
  | object fields => by
    rw [canonical, reals, reals]
    intro d hd
    obtain ⟨f, hf, hd⟩ := mem_realsOfFields.1 hd
    exact realsOfFields_canonicalFields_subset fields
      (mem_realsOfFields.2 ⟨f, NameMap.mem_of_mem_ofList hf, hd⟩)

theorem realsOfItems_canonicalItems_subset :
    (items : List Json) → realsOfItems (canonicalItems items) ⊆ realsOfItems items
  | [] => List.Subset.refl _
  | j :: rest => by
    rw [canonicalItems, realsOfItems, realsOfItems]
    exact List.append_subset.2
      ⟨List.subset_append_of_subset_left _ (reals_canonical_subset j),
        List.subset_append_of_subset_right _ (realsOfItems_canonicalItems_subset rest)⟩

theorem realsOfFields_canonicalFields_subset :
    (fields : List (String × Json)) → realsOfFields (canonicalFields fields) ⊆ realsOfFields fields
  | [] => List.Subset.refl _
  | (_, j) :: rest => by
    rw [canonicalFields, realsOfFields, realsOfFields]
    exact List.append_subset.2
      ⟨List.subset_append_of_subset_left _ (reals_canonical_subset j),
        List.subset_append_of_subset_right _ (realsOfFields_canonicalFields_subset rest)⟩

end

/-- What is read from the elements of a list is read from one of them. -/
theorem exists_mem_of_mem_mapM {α β : Type} {f : α → Option β} {as : List α} {bs : List β}
    (h : as.mapM f = some bs) {b : β} (hb : b ∈ bs) : ∃ a ∈ as, f a = some b := by
  induction as generalizing bs with
  | nil =>
    cases h
    cases hb
  | cons a as ih =>
    simp only [List.mapM_cons, Option.bind_eq_bind, Option.bind_eq_some_iff] at h
    obtain ⟨first, hfirst, others, hothers, h⟩ := h
    cases h
    rcases List.mem_cons.1 hb with rfl | hb
    · exact ⟨a, List.mem_cons_self, hfirst⟩
    · obtain ⟨i, hi, hread⟩ := ih hothers hb
      exact ⟨i, List.mem_cons_of_mem _ hi, hread⟩

/-- The elements of a list bring in no decimals. -/
theorem exists_part_of_mem_listOf? {α : Type} {read : Json → Option α} {j : Json} {rs : List α}
    (h : j.listOf? read = some rs) {r : α} (hr : r ∈ rs) :
    ∃ i, read i = some r ∧ i.reals ⊆ j.reals := by
  simp only [listOf?, Option.bind_eq_bind, Option.bind_eq_some_iff] at h
  obtain ⟨items, hitems, h⟩ := h
  obtain ⟨i, hi, hread⟩ := exists_mem_of_mem_mapM h hr
  cases j with
  | list items' =>
    cases hitems
    exact ⟨i, hread, fun d hd => mem_realsOfItems.2 ⟨i, hi, hd⟩⟩
  | _ => cases hitems

namespace Record

/-- The values of fields that are found by name bring in no decimals. -/
theorem reals_subset_of_byName {names : List String} {j : Json} {values : List (Option Json)}
    (h : byName names j = some values) {i : Json} (hi : some i ∈ values) : i.reals ⊆ j.reals := by
  cases j with
  | object fields =>
    obtain ⟨name, -, hfield⟩ := exists_mem_of_mem_mapM h hi
    unfold field? at hfield
    split at hfield
    · cases hfield
    · rename_i f hf
      cases hfield
      have hmem : f ∈ fields := (List.mem_filter.1 (hf ▸ List.mem_singleton_self f)).1
      exact fun d hd => mem_realsOfFields.2 ⟨f, hmem, hd⟩
    · cases hfield
  | _ => cases h

/-- So do those of fields that are found by name or by position. -/
theorem reals_subset_of_byNameOrPosition {names : List String} {j : Json}
    {values : List (Option Json)} (h : byNameOrPosition names j = some values) {i : Json}
    (hi : some i ∈ values) : i.reals ⊆ j.reals := by
  cases j with
  | list items =>
    simp only [byNameOrPosition] at h
    split at h
    · cases h
      rcases List.mem_append.1 hi with hi | hi
      · obtain ⟨i', hi', heq⟩ := List.mem_map.1 hi
        cases heq
        exact fun d hd => mem_realsOfItems.2 ⟨i, hi', hd⟩
      · cases List.eq_of_mem_replicate hi
    · cases h
  | _ =>
    simp only [byNameOrPosition] at h
    exact reals_subset_of_byName h hi

/-- A default value brings in no decimals, whether it is given or not. -/
theorem reals_subset_of_defaulted {value : Option Json} {i j : Json}
    (h : defaulted null (fun j => some j.canonical) value = some i)
    (hvalue : ∀ given, value = some given → given.reals ⊆ j.reals) : i.reals ⊆ j.reals := by
  cases value with
  | none =>
    cases h
    exact List.nil_subset _
  | some given =>
    cases h
    exact List.Subset.trans (reals_canonical_subset given) (hvalue given rfl)

end Record

end Json

open Json Json.Record

/-! ### Configurations -/

/-- A configuration that is read from a reduced value has a reduced default value. -/
theorem AttributeConfiguration.isReduced_of_ofJson? {j : Json} {a : AttributeConfiguration}
    (h : ofJson? j = some a) (hj : j.IsReduced) : a.defaultValue.IsReduced := by
  simp only [ofJson?, Option.bind_eq_bind, Option.bind_eq_some_iff] at h
  obtain ⟨values, hvalues, h⟩ := h
  split at h
  · simp only [Option.bind_eq_some_iff] at h
    obtain ⟨_, -, _, -, _, -, _, -, _, -, _, -, value, hvalue, h⟩ := h
    cases h
    have hpart := reals_subset_of_defaulted hvalue fun given hgiven =>
      reals_subset_of_byNameOrPosition hvalues (by simp [hgiven])
    exact fun d hd => hj d (hpart hd)
  · cases h

namespace Response

/-- Each record of a response, whatever its layout, was read from a part of it. -/
theorem exists_part_of_mem_records? {α : Type} {read : Json → Option α} {j : Json} {rs : List α}
    (h : records? read j = some rs) {r : α} (hr : r ∈ rs) :
    ∃ i, read i = some r ∧ i.reals ⊆ j.reals := by
  simp only [records?, Option.orElse_eq_or, Option.or_eq_some_iff] at h
  rcases h with hbatched | ⟨-, hflat | ⟨-, hquery⟩⟩
  · obtain ⟨batches, hbatches, rfl⟩ := Option.map_eq_some_iff.1 hbatched
    cases batches with
    | nil => cases hr
    | cons batch rest =>
      obtain ⟨list, hlist, hpart⟩ :=
        exists_part_of_mem_listOf? hbatches (r := batch) List.mem_cons_self
      obtain ⟨i, hi, hinner⟩ := exists_part_of_mem_listOf? hlist hr
      exact ⟨i, hi, List.Subset.trans hinner hpart⟩
  · exact exists_part_of_mem_listOf? hflat hr
  · simp only [query?, Option.bind_eq_bind, Option.bind_eq_some_iff] at hquery
    obtain ⟨values, hvalues, hquery⟩ := hquery
    split at hquery
    · obtain ⟨data, rfl, hdata⟩ := Option.bind_eq_some_iff.1 hquery
      obtain ⟨i, hi, hinner⟩ := exists_part_of_mem_listOf? hdata hr
      exact ⟨i, hi, List.Subset.trans hinner (reals_subset_of_byName hvalues (by simp))⟩
    · cases hquery

/-- **The default values of a response are reduced.** -/
theorem isReduced_of_configurations {text : String} {attributes : List AttributeConfiguration}
    (h : configurations text = .ok attributes) : ∀ a ∈ attributes, a.defaultValue.IsReduced := by
  intro a ha
  unfold configurations parse at h
  split at h
  · cases h
  · rename_i hstart
    split at h
    · cases h
    · rename_i hrecords
      split at h
      · cases h
        obtain ⟨i, hi, hpart⟩ := exists_part_of_mem_records? hrecords ha
        exact AttributeConfiguration.isReduced_of_ofJson? hi
          fun d hd => isReduced_of_parseStart hstart d (hpart hd)
      · cases h

end Response

end EntityTypings
