import EntityTypings.Emission
import EntityTypings.Proofs.CommentLines
import EntityTypings.Proofs.ReadValues

/-!
# The table of attribute configurations

The configurations of custom attributes are written into the source as the elements of a list, each
as an object with a line for every field. The keys, labels and default values in it are taken over
from the server and can be any text or value, so they could hold what ends a literal, an object or
the list. They are written as JSON, and here it is shown that this is enough.

The table is taken out of the source line by line (`tableLines`): it starts below the line that
reads `return [` and ends above the next that reads `] as const;`, and neither can be brought about
by a configuration. The main statement, `configurations_told_by_table`, says that each configuration
has nine lines there, and that they say which configuration it is. That a literal ends at its own
quote and nowhere before is `Json.stringBody_quoted`.

Default values are told by their texts if the decimals in them are reduced. All decimals are that a
response can bring in, so that the statement is about every table of a run.
-/

namespace EntityTypings

/-! ### Lines without line feeds -/

namespace LineBreaks

/-- Texts without control characters have no line feeds. -/
theorem free_of_hasNoControls {t : String} (h : Json.HasNoControls t.toList) :
    lineFeeds.Free t := by
  intro c hc
  refine decide_eq_false ?_
  rintro rfl
  exact absurd (h _ hc) (by decide)

/-- What is written as a line without line feeds is a line. -/
theorem lines_renderLines_append {b : LineBreaks} {ls : List Line}
    (h : ∀ l ∈ ls, b.Free l.content) (rest : List Line) :
    b.lines (renderLines 0 (ls ++ rest)) =
      ls.map (fun l => l.content.toList) ++ b.lines (renderLines 0 rest) := by
  rw [lines_renderLines, lines_renderLines, List.flatMap_append]
  congr 1
  induction ls with
  | nil => rfl
  | cons l ls ih =>
    obtain ⟨hl, hls⟩ := List.forall_mem_cons.1 h
    rw [List.flatMap_cons, parts_eq_singleton_iff.2 hl, ih hls]
    rfl

end LineBreaks

/-- A line is indented by spaces, which are no line feeds. -/
theorem Line.free_content {depth : Nat} {text : String} (h : LineBreaks.lineFeeds.Free text) :
    LineBreaks.lineFeeds.Free (Line.content ⟨depth, text⟩) := by
  unfold content
  split
  · exact fun _ hc => absurd hc List.not_mem_nil
  · refine LineBreaks.free_append_iff.2 ⟨fun c hc => ?_, h⟩
    rw [String.toList_ofList] at hc
    rw [List.eq_of_mem_replicate hc]
    rfl

/-! ### Where the table stands -/

/-- A line without the spaces that it is indented by. -/
def unindented (line : List Char) : List Char := line.dropWhile (· = ' ')

/-- Without its indentation a line is its text, if that does not start with a space. -/
theorem unindented_content {depth : Nat} {text : String} (hne : text ≠ "")
    (hhead : text.toList.head? ≠ some ' ') :
    unindented (Line.content ⟨depth, text⟩).toList = text.toList := by
  have hspaces : ∀ c ∈ List.replicate (2 * depth) ' ', decide (c = ' ') = true :=
    fun c hc => decide_eq_true (List.eq_of_mem_replicate hc)
  rw [Line.content, if_neg hne, String.toList_append, String.toList_ofList, unindented,
    List.dropWhile_append_of_pos hspaces]
  cases hcs : text.toList with
  | nil => rfl
  | cons c cs =>
    have hc : c ≠ ' ' := by
      rintro rfl
      exact hhead (by rw [hcs]; rfl)
    exact List.dropWhile_cons_of_neg (by simp [hc])

/-- The line that opens the table. -/
def tableStart : String := "return ["

/-- The line that closes it. -/
def tableEnd : String := "] as const;"

/-- The lines between the first that opens a table and the next that closes it. -/
def tableLines (text : String) : List (List Char) :=
  (((LineBreaks.lineFeeds.lines text).dropWhile (fun l => unindented l ≠ tableStart.toList)).drop 1)
    |>.takeWhile (fun l => unindented l ≠ tableEnd.toList)

/-- What stands between the two lines is the table, if none of its lines closes it. -/
theorem tableLines_eq {text : String} {header first last : List Char}
    {rows behind : List (List Char)} (hlines : LineBreaks.lineFeeds.lines text =
      header :: first :: (rows ++ last :: behind))
    (hheader : unindented header ≠ tableStart.toList)
    (hfirst : unindented first = tableStart.toList)
    (hrows : ∀ l ∈ rows, unindented l ≠ tableEnd.toList)
    (hlast : unindented last = tableEnd.toList) : tableLines text = rows := by
  rw [tableLines, hlines, List.dropWhile_cons_of_pos (by simp [hheader]),
    List.dropWhile_cons_of_neg (by simp [hfirst]), List.drop_one, List.tail_cons,
    List.takeWhile_append_of_pos (by simpa using hrows),
    List.takeWhile_cons_of_neg (by simp [hlast]), List.append_nil]

/-- A text that can stand on a line of the table. -/
structure IsRowText (t : String) : Prop where
  /-- It is not empty. -/
  ne_empty : t ≠ ""
  /-- Its start is not taken for indentation. -/
  head_ne_space : t.toList.head? ≠ some ' '
  /-- It is not taken for the end of the table. -/
  head_ne_bracket : t.toList.head? ≠ some ']'
  /-- It stays on its line. -/
  noControls : Json.HasNoControls t.toList

instance (t : String) : Decidable (IsRowText t) :=
  decidable_of_iff (t ≠ "" ∧ t.toList.head? ≠ some ' ' ∧ t.toList.head? ≠ some ']' ∧
    Json.HasNoControls t.toList)
    ⟨fun ⟨hne, hspace, hbracket, hcontrols⟩ => ⟨hne, hspace, hbracket, hcontrols⟩,
      fun h => ⟨h.ne_empty, h.head_ne_space, h.head_ne_bracket, h.noControls⟩⟩

namespace IsRowText

theorem append {s t : String} (h : IsRowText s) (ht : Json.HasNoControls t.toList) :
    IsRowText (s ++ t) := by
  have hne : s.toList ≠ [] := fun hnil => h.ne_empty (String.toList_eq_nil_iff.1 hnil)
  have hhead : (s ++ t).toList.head? = s.toList.head? := by
    obtain ⟨c, cs, hcs⟩ := List.exists_cons_of_ne_nil hne
    rw [String.toList_append, hcs]
    rfl
  refine ⟨fun hempty => ?_, hhead ▸ h.head_ne_space, hhead ▸ h.head_ne_bracket, ?_⟩
  · rw [← String.toList_eq_nil_iff, String.toList_append, List.append_eq_nil_iff] at hempty
    exact hne hempty.1
  · rw [String.toList_append]
    exact Json.hasNoControls_append h.noControls ht

variable {l : Line}

theorem unindented_content (h : IsRowText l.text) : unindented l.content.toList = l.text.toList :=
  EntityTypings.unindented_content h.ne_empty h.head_ne_space

/-- The line does not end the table. -/
theorem ne_tableEnd (h : IsRowText l.text) : unindented l.content.toList ≠ tableEnd.toList := by
  rw [h.unindented_content]
  intro heq
  exact h.head_ne_bracket (by rw [heq]; rfl)

theorem free_content (h : IsRowText l.text) : LineBreaks.lineFeeds.Free l.content :=
  Line.free_content (LineBreaks.free_of_hasNoControls h.noControls)

end IsRowText

/-! ### The rows -/

namespace Declaration

/-- The lines of a configuration in the table, at a depth of indentation. -/
def rowLines (depth : Nat) (a : AttributeConfiguration) : List (List Char) :=
  (row a).map (fun l => (l.indent depth).content.toList)

@[simp] theorem length_rowLines (depth : Nat) (a : AttributeConfiguration) :
    (rowLines depth a).length = 9 := rfl

variable {a b : AttributeConfiguration}

/-- The values of the fields have no control characters. -/
theorem hasNoControls_of_mem_rowFields {f : String × String} (hf : f ∈ rowFields a) :
    Json.HasNoControls f.2.toList := by
  have hobject : Json.HasNoControls ((a.objectType.map Json.quoted).getD "undefined").toList := by
    cases a.objectType with
    | none => decide
    | some name => exact Json.hasNoControls_quoted name
  have hflag : Json.HasNoControls (if a.isHierarchical then "true" else "false").toList := by
    cases a.isHierarchical <;> decide
  simp only [rowFields, List.mem_cons, List.not_mem_nil, or_false] at hf
  rcases hf with rfl | rfl | rfl | rfl | rfl | rfl | rfl
  · exact Json.hasNoControls_quoted a.key
  · exact Json.hasNoControls_quoted a.valueKind
  · exact Json.hasNoControls_quoted a.label
  · exact Json.hasNoControls_quoted a.entityType
  · exact Json.hasNoControls_compact a.defaultValue
  · exact hobject
  · exact hflag

/-- A field starts with its name. -/
theorem isRowText_fieldText {f : String × String} (hf : f ∈ rowFields a) :
    IsRowText (fieldText f) := by
  have hnames : ∀ n ∈ ["name", "type", "label", "entityType", "default", "objectType",
      "isHierarchical"], IsRowText n := by decide
  have hname : IsRowText f.1 := hnames f.1 (List.mem_map_of_mem (f := Prod.fst) hf)
  exact ((hname.append (by decide)).append (hasNoControls_of_mem_rowFields hf)).append (by decide)

/-- No line of a configuration ends the table, and none is two. -/
theorem isRowText_of_mem_row {l : Line} (hl : l ∈ row a) : IsRowText l.text := by
  simp only [row, block, if_true, List.cons_append, List.mem_cons, List.mem_append, List.mem_map,
    List.not_mem_nil, or_false] at hl
  rcases hl with rfl | ⟨_, ⟨f, hf, rfl⟩, rfl⟩ | rfl
  · decide
  · exact isRowText_fieldText hf
  · decide

/-- The object type is written as a literal or as a word, so a missing one is told from any name. -/
theorem objectType_inj {s t : Option String}
    (h : (s.map Json.quoted).getD "undefined" = (t.map Json.quoted).getD "undefined") : s = t := by
  have hword (n : String) : Json.quoted n ≠ "undefined" := by
    intro heq
    exact absurd (congrArg (fun t : String => t.toList.head?) heq) (by simp [Json.quoted])
  cases s with
  | none =>
    cases t with
    | none => rfl
    | some n => exact absurd h.symm (hword n)
  | some n =>
    cases t with
    | none => exact absurd h (hword n)
    | some m => exact congrArg some (Json.quoted_inj h)

theorem flag_inj {p q : Bool}
    (h : (if p then "true" else "false") = if q then "true" else "false") : p = q := by
  cases p <;> cases q <;> first | rfl | exact absurd h (by decide)

/-- The values of the fields say which configuration it is. -/
theorem rowFields_inj (ha : a.defaultValue.IsReduced) (hb : b.defaultValue.IsReduced)
    (h : (rowFields a).map fieldText = (rowFields b).map fieldText) : a = b := by
  simp only [rowFields, fieldText, List.map_cons, List.map_nil, List.cons.injEq,
    String.append_left_inj, String.append_right_inj, and_true] at h
  obtain ⟨hkey, hkind, hlabel, hentity, hdefault, hobject, hflag⟩ := h
  cases a
  cases b
  exact (AttributeConfiguration.mk.injEq ..).mpr ⟨Json.quoted_inj hkey, Json.quoted_inj hlabel,
    Json.quoted_inj hentity, objectType_inj hobject, flag_inj hflag, Json.quoted_inj hkind,
    Json.compact_inj ha hb hdefault⟩

/-- So do its lines. -/
theorem rowLines_inj {depth : Nat} (ha : a.defaultValue.IsReduced) (hb : b.defaultValue.IsReduced)
    (h : rowLines depth a = rowLines depth b) : a = b := by
  have htexts (c : AttributeConfiguration) :
      (rowLines depth c).map (fun l => String.ofList (unindented l)) = (row c).map Line.text := by
    rw [rowLines, List.map_map]
    refine List.map_congr_left fun l hl => ?_
    have htext : IsRowText (l.indent depth).text := (isRowText_of_mem_row hl : IsRowText l.text)
    rw [Function.comp_apply, htext.unindented_content]
    exact String.ofList_toList
  have hrow : (row a).map Line.text = (row b).map Line.text := by rw [← htexts, h, htexts]
  have hfields (c : AttributeConfiguration) :
      (row c).map Line.text = "\x7b" :: (rowFields c).map fieldText ++ ["\x7d,"] := rfl
  -- Opening and closing brace are the same in all rows.
  rw [hfields, hfields, List.append_cancel_right_eq] at hrow
  exact rowFields_inj ha hb (List.cons.inj hrow).2

/-- Configurations one after the other are told apart, as each has nine lines. -/
theorem flatMap_rowLines_inj {depth : Nat} {as bs : List AttributeConfiguration}
    (ha : ∀ a ∈ as, a.defaultValue.IsReduced) (hb : ∀ b ∈ bs, b.defaultValue.IsReduced)
    (h : as.flatMap (rowLines depth) = bs.flatMap (rowLines depth)) : as = bs := by
  have hlines (a : AttributeConfiguration) (as : List AttributeConfiguration) :
      0 < ((a :: as).flatMap (rowLines depth)).length := by
    rw [List.flatMap_cons, List.length_append, length_rowLines]
    omega
  induction as generalizing bs with
  | nil =>
    cases bs with
    | nil => rfl
    | cons b bs => exact absurd (congrArg List.length h) (hlines b bs).ne
  | cons a as ih =>
    cases bs with
    | nil => exact absurd (congrArg List.length h) (hlines a as).ne'
    | cons b bs =>
      rw [List.flatMap_cons, List.flatMap_cons] at h
      obtain ⟨hfirst, hrest⟩ := List.append_inj h (by simp)
      obtain ⟨hared, has⟩ := List.forall_mem_cons.1 ha
      obtain ⟨hbred, hbs⟩ := List.forall_mem_cons.1 hb
      rw [rowLines_inj hared hbred hfirst, ih has hbs hrest]

/-! ### The table -/

/-- The rows stand two levels deep, in the list that the function returns. -/
theorem lines_configurationTable (as : List AttributeConfiguration) :
    (configurationTable as).lines =
      [⟨0, configurationTableHeader ++ " \x7b"⟩, ⟨1, tableStart⟩] ++
        (as.flatMap row).map (Line.indent 2) ++ [⟨1, tableEnd⟩, ⟨0, "\x7d"⟩] := by
  have hheader : configurationTableHeader ≠ "" := by decide
  simp [lines, block, hheader, Line.indent, tableStart, tableEnd, Function.comp_def]

/-- The text of the rows. -/
def tableText (depth : Nat) (as : List AttributeConfiguration) : String :=
  renderLines (depth + 2) (as.flatMap row)

/-- The rows as they stand in the source. -/
def tableRows (depth : Nat) (as : List AttributeConfiguration) : List Line :=
  (as.flatMap row).map (Line.indent (depth + 2))

theorem tableText_eq (depth : Nat) (as : List AttributeConfiguration) :
    tableText depth as = renderLines 0 (tableRows depth as) := by
  rw [tableText, tableRows, ← renderLines_add, Nat.add_zero]

theorem isRowText_of_mem_tableRows {depth : Nat} {as : List AttributeConfiguration} {l : Line}
    (hl : l ∈ tableRows depth as) : IsRowText l.text := by
  obtain ⟨l', hl', rfl⟩ := List.mem_map.1 hl
  obtain ⟨a, -, ha⟩ := List.mem_flatMap.1 hl'
  exact (isRowText_of_mem_row ha : IsRowText l'.text)

theorem contents_tableRows (depth : Nat) (as : List AttributeConfiguration) :
    (tableRows depth as).map (fun l => l.content.toList) = as.flatMap (rowLines (depth + 2)) := by
  rw [tableRows, List.map_map, List.map_flatMap]
  rfl

/-- The lines of the rows are those of one configuration after the other. -/
theorem lines_tableText (depth : Nat) (as : List AttributeConfiguration) :
    LineBreaks.lineFeeds.lines (tableText depth as) = as.flatMap (rowLines (depth + 2)) := by
  have hsplit := LineBreaks.lines_renderLines_append
    (fun l (hl : l ∈ tableRows depth as) => (isRowText_of_mem_tableRows hl).free_content) []
  rw [List.append_nil] at hsplit
  rw [tableText_eq, hsplit, contents_tableRows]
  exact List.append_nil _

/-- They are what is found in the source, whatever stands below the table. -/
theorem tableLines_renderLines (depth : Nat) (as : List AttributeConfiguration)
    (below : List Line) :
    tableLines (renderLines depth [⟨0, configurationTableHeader ++ " \x7b"⟩, ⟨1, tableStart⟩]
      ++ tableText depth as ++ renderLines depth (⟨1, tableEnd⟩ :: below)) =
      as.flatMap (rowLines (depth + 2)) := by
  let header : Line := ⟨0 + depth, configurationTableHeader ++ " \x7b"⟩
  let first : Line := ⟨1 + depth, tableStart⟩
  let last : Line := ⟨1 + depth, tableEnd⟩
  -- Below the table, types are written as they are named, so that line feeds are possible there.
  have hfree : ∀ l ∈ header :: first :: tableRows depth as ++ [last],
      LineBreaks.lineFeeds.Free l.content := by
    simp only [List.cons_append, List.forall_mem_cons, List.forall_mem_append]
    exact ⟨Line.free_content (by decide), Line.free_content (by decide),
      fun l hl => (isRowText_of_mem_tableRows hl).free_content, Line.free_content (by decide),
      fun _ hl => nomatch hl⟩
  have hsplit := LineBreaks.lines_renderLines_append hfree (below.map (Line.indent depth))
  have htext : renderLines depth [⟨0, configurationTableHeader ++ " \x7b"⟩, ⟨1, tableStart⟩]
      ++ tableText depth as ++ renderLines depth (⟨1, tableEnd⟩ :: below) =
      renderLines 0 (header :: first :: tableRows depth as ++ [last]
        ++ below.map (Line.indent depth)) := by
    have hdepth (ls : List Line) :
        renderLines depth ls = renderLines 0 (ls.map (Line.indent depth)) :=
      renderLines_add depth 0 ls
    rw [tableText_eq, hdepth, hdepth, ← renderLines_append, ← renderLines_append]
    simp [header, first, last, Line.indent]
  rw [← htext, List.map_append, List.append_assoc] at hsplit
  rw [← contents_tableRows]
  refine tableLines_eq hsplit ?_ ?_ ?_ ?_
  · rw [unindented_content (by decide) (by decide)]
    decide
  · exact unindented_content (by decide) (by decide)
  · intro l hl
    obtain ⟨l', hl', rfl⟩ := List.mem_map.1 hl
    exact (isRowText_of_mem_tableRows hl').ne_tableEnd
  · exact unindented_content (by decide) (by decide)

/-- The declarations for custom attributes start with the table. -/
theorem renderLines_attributes (depth : Nat) (as : List AttributeConfiguration)
    (ss : List Schema) : ∃ below, renderLines depth ((attributes as ss).flatMap lines) =
      renderLines depth [⟨0, configurationTableHeader ++ " \x7b"⟩, ⟨1, tableStart⟩]
        ++ tableText depth as ++ renderLines depth (⟨1, tableEnd⟩ :: below) := by
  have hdeeper : renderLines depth ((as.flatMap row).map (Line.indent 2)) = tableText depth as := by
    rw [tableText, Nat.add_comm depth 2, renderLines_add]
  refine ⟨⟨0, "\x7d"⟩ :: (attributes as ss).tail.flatMap lines, ?_⟩
  have htable : attributes as ss = configurationTable as :: (attributes as ss).tail := rfl
  rw [htable, List.flatMap_cons, lines_configurationTable, ← hdeeper, ← renderLines_append,
    ← renderLines_append]
  congr 1
  simp

end Declaration

open Declaration

/-- **The table is faithful, whatever the configurations hold.** Between the line that opens it and
the next that closes it stand nine lines for each configuration, in order. If all decimals in
default values are reduced, as they are in every response, two tables are the same if and only if
their configurations are: no label, key or default value can end its literal, take the place of
another field or make a list look like another. -/
theorem configurations_told_by_table (e : Emission) (as bs : List AttributeConfiguration)
    (ss : List Schema) :
    (∃ text below,
      (e.declarations (attributes as ss)).code = e.code ++ text ∧
      text = renderLines e.depth [⟨0, configurationTableHeader ++ " \x7b"⟩, ⟨1, tableStart⟩]
        ++ tableText e.depth as ++ renderLines e.depth (⟨1, tableEnd⟩ :: below) ∧
      tableLines text = as.flatMap (rowLines (e.depth + 2))) ∧
    LineBreaks.lineFeeds.lines (tableText e.depth as) = as.flatMap (rowLines (e.depth + 2)) ∧
    (∀ a, (rowLines (e.depth + 2) a).length = 9) ∧
    ((∀ a ∈ as ++ bs, a.defaultValue.IsReduced) →
      (tableText e.depth as = tableText e.depth bs ↔ as = bs)) ∧
    ∀ response, Response.configurations response = .ok as → ∀ a ∈ as, a.defaultValue.IsReduced := by
  refine ⟨?_, lines_tableText e.depth as, length_rowLines _, fun hreduced => ⟨fun h => ?_, ?_⟩,
    fun _ h => Response.isReduced_of_configurations h⟩
  · obtain ⟨below, htext⟩ := renderLines_attributes e.depth as ss
    refine ⟨_, below, ?_, htext, ?_⟩
    · rw [Emission.declarations_eq_lines, Emission.code_lines]
    · rw [htext, tableLines_renderLines]
  · obtain ⟨ha, hb⟩ := List.forall_mem_append.1 hreduced
    have hrows : as.flatMap (rowLines (e.depth + 2)) = bs.flatMap (rowLines (e.depth + 2)) := by
      rw [← lines_tableText, h, lines_tableText]
    exact flatMap_rowLines_inj ha hb hrows
  · rintro rfl
    rfl

/-- An attribute of which the label pretends to end its literal, the object and the table, with
decimals in its default value. -/
def breakingAttribute : AttributeConfiguration where
  key := "undefined"
  label := "\",\n      objectType: \"Shot\",\n    \x7d,\n  ] as const;\n//"
  entityType := "task"
  objectType := none
  isHierarchical := false
  valueKind := "text"
  defaultValue := .object [("], \"", .list [.real ⟨true, 15, -1⟩, .real ⟨false, 0, 0⟩, .integer 0])]

/-- The same attribute, bound to an object type. -/
def boundAttribute : AttributeConfiguration :=
  { breakingAttribute with objectType := some "undefined" }

/-- The label stays on its line, and the object type is told from a missing one by its quotes. -/
theorem table_of_breakingAttribute :
    (∀ a ∈ [breakingAttribute] ++ [boundAttribute], a.defaultValue.IsReduced) ∧
      tableText 0 [breakingAttribute] ≠ tableText 0 [boundAttribute] ∧
      (LineBreaks.lineFeeds.lines (tableText 0 [breakingAttribute])).length = 9 ∧
      (tableLines (Emission.start.declarations (attributes [breakingAttribute] [])).code).length =
        9 := by
  have hreduced : ∀ a ∈ [breakingAttribute] ++ [boundAttribute], a.defaultValue.IsReduced := by
    decide
  obtain ⟨⟨text, _, hcode, -, htext⟩, hlines, hnine, htold, -⟩ :=
    configurations_told_by_table .start [breakingAttribute] [boundAttribute] []
  refine ⟨hreduced, fun h => ?_, ?_, ?_⟩
  · have hobject := congrArg (List.map AttributeConfiguration.objectType) ((htold hreduced).1 h)
    exact absurd hobject (by decide)
  · exact (congrArg List.length hlines).trans (by decide)
  · have hstart : Emission.start.code ++ text = text := String.empty_append
    rw [hcode, hstart, htext]
    rfl

end EntityTypings
