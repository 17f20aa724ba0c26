import EntityTypings.Generation

/-!
# The text of a source

What stands in a source for each kind of declaration, spelled out: the header of an interface with
its parameters, the type that it extends and the members that it leaves out, a line for each member
and the braces around them, and so for the other kinds (`Declaration.source`). A source is the
texts of its parts one after the other (`Artifact.text_eq_source`), so that what is said of
declarations is said of the text.

A text declares a name if it begins with `export`, the kind of declaration and the name, up to a
space or an opening bracket (`Declares`). Every declaration of a run declares its own name
(`Generation.declares_of_mem`).
-/

namespace EntityTypings

/-! ### What is written -/

/-- A member on a line of its own. -/
def Member.source (m : Member) : String :=
  "  " ++ (if m.isReadonly then "readonly " else "") ++ m.name
    ++ (if m.isOptional then "?: " else ": ") ++ m.type.text ++ ";\n"

theorem Member.source_plain (name : String) (type : TypeExpr) :
    (plain name type).source = "  " ++ name ++ ": " ++ type.text ++ ";\n" := by
  simp only [source, plain, Bool.false_eq_true, if_false, String.append_empty]

namespace AttributeConfiguration

/-- A field of a configuration on a line of its own. -/
def fieldSource (name value : String) : String := "      " ++ name ++ ": " ++ value ++ ",\n"

/-- A configuration as an element of the table. -/
def source (a : AttributeConfiguration) : String :=
  "    \x7b\n" ++ fieldSource "name" (Json.quoted a.key)
    ++ fieldSource "type" (Json.quoted a.valueKind)
    ++ fieldSource "label" (Json.quoted a.label)
    ++ fieldSource "entityType" (Json.quoted a.entityType)
    ++ fieldSource "default" a.defaultValue.compact
    ++ fieldSource "objectType" ((a.objectType.map Json.quoted).getD "undefined")
    ++ fieldSource "isHierarchical" (if a.isHierarchical then "true" else "false")
    ++ "    \x7d,\n"

end AttributeConfiguration

/-- The declaration with all that is written for it. -/
def Declaration.source : Declaration → String
  | interface name parameters none members =>
    "export interface " ++ name ++ parameters ++ " \x7b\n"
      ++ String.join (members.map Member.source) ++ "\x7d\n"
  | interface name parameters (some ⟨base, omitted⟩) members =>
    "export interface " ++ name ++ parameters ++ " extends Omit<" ++ base ++ ", "
      ++ " | ".intercalate (omitted.map (fun m => "\"" ++ m ++ "\"")) ++ "> \x7b\n"
      ++ String.join (members.map Member.source) ++ "\x7d\n"
  | typeAlias name parameters definition =>
    "export type " ++ name ++ parameters ++ " = " ++ definition ++ ";\n"
  | attributeValue name members =>
    "export type " ++ name ++ " = Omit<ContextCustomAttributeValue, \"key\" | \"value\"> & \x7b\n"
      ++ String.join (members.map Member.source) ++ "\x7d;\n"
  | configurationTable rows =>
    "export function getAttributeConfigurations() \x7b\n  return [\n"
      ++ String.join (rows.map AttributeConfiguration.source) ++ "  ] as const;\n\x7d\n"

theorem Declaration.source_interface (name parameters : String) (members : List Member) :
    (interface name parameters none members).source =
      "export interface " ++ name ++ parameters ++ " \x7b\n"
        ++ String.join (members.map Member.source) ++ "\x7d\n" := rfl

/-- Whatever it extends, an interface starts with its name and its parameters. -/
theorem Declaration.exists_source_interface (name parameters : String) (heritage : Option Heritage)
    (members : List Member) : ∃ rest, (interface name parameters heritage members).source =
      "export interface " ++ name ++ parameters ++ rest := by
  cases heritage with
  | none =>
    refine ⟨" \x7b\n" ++ String.join (members.map Member.source) ++ "\x7d\n", ?_⟩
    rw [source_interface]
    simp only [String.append_assoc]
  | some h =>
    refine ⟨" extends Omit<" ++ h.base ++ ", "
      ++ " | ".intercalate (h.omitted.map (fun m => "\"" ++ m ++ "\"")) ++ "> \x7b\n"
      ++ String.join (members.map Member.source) ++ "\x7d\n", ?_⟩
    unfold source
    simp only [String.append_assoc]

/-- Declarations one below the other. -/
def sourceOfAll (ds : List Declaration) : String := String.join (ds.map Declaration.source)

/-- The comments, the declarations of schemas and the lookups, each with an empty line below it, the
declarations for custom attributes, and the comments that repeat messages. -/
def Artifact.source (a : Artifact) : String :=
  String.join (a.preamble.map (· ++ "\n")) ++ "\n"
    ++ String.join (a.entities.map (fun d => d.source ++ "\n"))
    ++ String.join (a.lookups.map (fun ds => sourceOfAll ds ++ "\n"))
    ++ sourceOfAll a.attributes
    ++ (if a.messages = [] then ""
      else "\n// Errors:\n" ++ String.join (a.messages.map (fun m => "// " ++ m ++ "\n")))

theorem sourceOfAll_cons (d : Declaration) (ds : List Declaration) :
    sourceOfAll (d :: ds) = d.source ++ sourceOfAll ds := by
  rw [sourceOfAll, List.map_cons, String.join_cons, sourceOfAll]

theorem sourceOfAll_singleton (d : Declaration) : sourceOfAll [d] = d.source := by
  rw [sourceOfAll_cons, sourceOfAll, List.map_nil, String.join_nil, String.append_empty]

theorem sourceOfAll_append (ds es : List Declaration) :
    sourceOfAll (ds ++ es) = sourceOfAll ds ++ sourceOfAll es := by
  rw [sourceOfAll, List.map_append, String.join_append, sourceOfAll, sourceOfAll]

/-- What a declaration takes over from another type stands in its header. -/
theorem Declaration.source_of_heritage? {d : Declaration} {h : Heritage} (hd : d.heritage? = some h) :
    ∃ parameters, d.source =
      "export interface " ++ d.name ++ parameters ++ " extends Omit<" ++ h.base ++ ", "
        ++ " | ".intercalate (h.omitted.map (fun m => "\"" ++ m ++ "\"")) ++ "> \x7b\n"
        ++ String.join (d.members.map Member.source) ++ "\x7d\n" := by
  cases d with
  | interface name parameters heritage members =>
    obtain rfl : heritage = some h := hd
    exact ⟨parameters, rfl⟩
  | typeAlias | attributeValue | configurationTable => cases hd

/-! ### Lines -/

/-- A text that starts with something is not empty. -/
theorem append_ne_empty_of_left {s t : String} (h : s ≠ "") : s ++ t ≠ "" := by
  rw [ne_eq, String.append_eq_empty_iff]
  exact fun hempty => h hempty.1

/-- Nor is one that ends with something. -/
theorem append_ne_empty_of_right {s t : String} (h : t ≠ "") : s ++ t ≠ "" := by
  rw [ne_eq, String.append_eq_empty_iff]
  exact fun hempty => h hempty.2

/-- Texts written at a depth stand behind the same indentation, each on a line of its own. -/
theorem renderLines_texts {depth : Nat} (indentation : String)
    (hindent : String.ofList (List.replicate (2 * depth) ' ') = indentation) {texts : List String}
    (h : ∀ t ∈ texts, t ≠ "") : renderLines depth (texts.map (⟨0, ·⟩)) =
      String.join (texts.map (fun t => indentation ++ t ++ "\n")) := by
  rw [renderLines, List.map_map]
  refine congrArg String.join (List.map_congr_left fun t ht => ?_)
  have hline : ((⟨0, t⟩ : Line).indent depth).text ≠ "" := h t ht
  rw [Function.comp_apply, Line.render, if_neg hline, ← hindent]
  simp only [Line.indent, Nat.zero_add]

theorem renderLines_text {depth : Nat} {t : String} (indentation : String)
    (hindent : String.ofList (List.replicate (2 * depth) ' ') = indentation) (h : t ≠ "") :
    renderLines depth [⟨0, t⟩] = indentation ++ t ++ "\n" := by
  have hall : ∀ t' ∈ [t], t' ≠ "" := by simpa using h
  simpa using renderLines_texts indentation hindent hall

namespace Declaration

/-- The body of a block stands one level deeper than its header and its closing brace. -/
theorem renderLines_block (depth : Nat) (header : String) (body : List Line) (suffix : String) :
    renderLines depth (block header body suffix) =
      renderLines depth [⟨0, if header = "" then "\x7b" else header ++ " \x7b"⟩]
        ++ renderLines (1 + depth) body ++ renderLines depth [⟨0, "\x7d" ++ suffix⟩] := by
  rw [renderLines_add, ← renderLines_append, ← renderLines_append]
  rfl

/-- Texts in braces at the margin. -/
theorem renderLines_braced {header : String} (hheader : header ≠ "") {texts : List String}
    (htexts : ∀ t ∈ texts, t ≠ "") (suffix : String) :
    renderLines 0 (block header (texts.map (⟨0, ·⟩)) suffix) =
      header ++ " \x7b\n" ++ String.join (texts.map (fun t => "  " ++ t ++ "\n"))
        ++ "\x7d" ++ suffix ++ "\n" := by
  have hbrace : (" \x7b\n" : String) = " \x7b" ++ "\n" := by decide
  rw [renderLines_block, if_neg hheader, renderLines_text "" rfl
    (append_ne_empty_of_right (by decide)), renderLines_texts "  " (by decide) htexts,
    renderLines_text "" rfl (append_ne_empty_of_left (by decide)), hbrace]
  simp only [String.empty_append, String.append_assoc]

/-- The lines of a body, each with a member. -/
theorem renderLines_members {header : String} (hheader : header ≠ "") (members : List Member)
    (suffix : String) :
    renderLines 0 (block header (members.map (fun m => ⟨0, m.text⟩)) suffix) =
      header ++ " \x7b\n" ++ String.join (members.map Member.source)
        ++ "\x7d" ++ suffix ++ "\n" := by
  have htexts : ∀ t ∈ members.map Member.text, t ≠ "" := fun t ht => by
    obtain ⟨m, -, rfl⟩ := List.mem_map.1 ht
    exact append_ne_empty_of_right (by decide)
  have hlines := renderLines_braced hheader htexts suffix
  have hsource (m : Member) : "  " ++ m.text ++ "\n" = m.source := by
    have hend : (";\n" : String) = ";" ++ "\n" := by decide
    have hoptional : (if m.isOptional then "?: " else ": ") =
        (if m.isOptional then "?" else "") ++ ": " := by
      cases m.isOptional <;> decide
    simp only [Member.text, Member.source, hend, hoptional, String.append_assoc]
  simpa only [List.map_map, Function.comp_def, hsource] using hlines

theorem interfaceHeader_ne_empty (name parameters : String) (heritage : Option Heritage) :
    interfaceHeader name parameters heritage ≠ "" :=
  append_ne_empty_of_left (append_ne_empty_of_left (append_ne_empty_of_left (by decide)))

/-- **The text of an interface** that extends nothing. -/
theorem renderLines_interface (name parameters : String) (members : List Member) :
    renderLines 0 (interface name parameters none members).lines =
      "export interface " ++ name ++ parameters ++ " \x7b\n"
        ++ String.join (members.map Member.source) ++ "\x7d\n" := by
  have hheader : interfaceHeader name parameters none = "export interface " ++ name ++ parameters :=
    String.append_empty
  have hend : ("\x7d\n" : String) = "\x7d" ++ "" ++ "\n" := by decide
  rw [lines, renderLines_members (interfaceHeader_ne_empty name parameters none), hheader, hend]
  simp only [String.append_assoc]

/-- **The text of an interface** that extends another type without some of its members. -/
theorem renderLines_interface_extends (name parameters base : String) (omitted : List String)
    (members : List Member) :
    renderLines 0 (interface name parameters (some ⟨base, omitted⟩) members).lines =
      "export interface " ++ name ++ parameters ++ " extends Omit<" ++ base ++ ", "
        ++ " | ".intercalate (omitted.map (fun m => "\"" ++ m ++ "\"")) ++ "> \x7b\n"
        ++ String.join (members.map Member.source) ++ "\x7d\n" := by
  have hheader : interfaceHeader name parameters (some ⟨base, omitted⟩) =
      "export interface " ++ name ++ parameters ++ (" extends Omit<" ++ base ++ ", "
        ++ " | ".intercalate (omitted.map (fun m => "\"" ++ m ++ "\"")) ++ ">") := rfl
  have hbrace : ("> \x7b\n" : String) = ">" ++ " \x7b\n" := by decide
  have hend : ("\x7d\n" : String) = "\x7d" ++ "" ++ "\n" := by decide
  rw [lines, renderLines_members (interfaceHeader_ne_empty name parameters _), hheader, hbrace, hend]
  simp only [String.append_assoc]

/-- **The text of a name for a type.** -/
theorem renderLines_typeAlias (name parameters definition : String) :
    renderLines 0 (typeAlias name parameters definition).lines =
      "export type " ++ name ++ parameters ++ " = " ++ definition ++ ";\n" := by
  have htext : aliasText name parameters definition =
      "export type " ++ name ++ parameters ++ " = " ++ definition ++ ";" := rfl
  have hend : (";\n" : String) = ";" ++ "\n" := by decide
  have hne : aliasText name parameters definition ≠ "" := append_ne_empty_of_right (by decide)
  rw [lines, renderLines_text "" rfl hne, htext, hend, String.empty_append]
  simp only [String.append_assoc]

/-- **The text of the value record of a key.** -/
theorem renderLines_attributeValue (name : String) (members : List Member) :
    renderLines 0 (attributeValue name members).lines =
      "export type " ++ name ++ " = Omit<ContextCustomAttributeValue, \"key\" | \"value\"> & \x7b\n"
        ++ String.join (members.map Member.source) ++ "\x7d;\n" := by
  have hheader : attributeValueHeader name = "export type " ++ name ++
      " = Omit<ContextCustomAttributeValue, \"key\" | \"value\"> &" := rfl
  have hbrace : (" = Omit<ContextCustomAttributeValue, \"key\" | \"value\"> & \x7b\n" : String) =
      " = Omit<ContextCustomAttributeValue, \"key\" | \"value\"> &" ++ " \x7b\n" := by decide
  have hend : ("\x7d;\n" : String) = "\x7d" ++ ";" ++ "\n" := by decide
  have hne : attributeValueHeader name ≠ "" := append_ne_empty_of_right (by decide)
  rw [lines, renderLines_members hne, hheader, hbrace, hend]
  simp only [String.append_assoc]

/-- The text of a configuration in the table. -/
theorem renderLines_row (a : AttributeConfiguration) : renderLines 2 (row a) = a.source := by
  have hfields : ∀ t ∈ (rowFields a).map fieldText, t ≠ "" := fun t ht => by
    obtain ⟨f, -, rfl⟩ := List.mem_map.1 ht
    exact append_ne_empty_of_right (by decide)
  have hlines : (rowFields a).map (fun f => (⟨0, fieldText f⟩ : Line)) =
      ((rowFields a).map fieldText).map (⟨0, ·⟩) := (List.map_map ..).symm
  have hfield (name value : String) : "      " ++ fieldText (name, value) ++ "\n" =
      AttributeConfiguration.fieldSource name value := by
    have hend : (",\n" : String) = "," ++ "\n" := by decide
    simp only [fieldText, AttributeConfiguration.fieldSource, hend, String.append_assoc]
  have hopening : ("    \x7b\n" : String) = "    " ++ "\x7b" ++ "\n" := by decide
  have hclosing : ("    \x7d,\n" : String) = "    " ++ ("\x7d" ++ ",") ++ "\n" := by decide
  rw [row, renderLines_block, if_pos rfl, hlines,
    renderLines_text "    " (by decide) (by decide),
    renderLines_texts "      " (by decide) hfields,
    renderLines_text "    " (by decide) (by decide), List.map_map,
    AttributeConfiguration.source, hopening, hclosing]
  simp only [Function.comp_def, rowFields, List.map_cons, List.map_nil, hfield, String.join_cons,
    String.join_nil, String.append_empty]
  simp only [String.append_assoc]

/-- **The text of the table of configurations.** -/
theorem renderLines_configurationTable (rows : List AttributeConfiguration) :
    renderLines 0 (configurationTable rows).lines =
      "export function getAttributeConfigurations() \x7b\n  return [\n"
        ++ String.join (rows.map AttributeConfiguration.source) ++ "  ] as const;\n\x7d\n" := by
  have hrows : renderLines 1 ((rows.flatMap row).map (Line.indent 1)) =
      String.join (rows.map AttributeConfiguration.source) := by
    rw [← renderLines_add, renderLines_flatMap]
    exact congrArg String.join (List.map_congr_left fun a _ => renderLines_row a)
  have hheader : configurationTableHeader ≠ "" := by decide
  have hopening : ("export function getAttributeConfigurations() \x7b\n  return [\n" : String) =
      configurationTableHeader ++ " \x7b" ++ "\n" ++ ("  " ++ "return [" ++ "\n") := by decide
  have hclosing : ("  ] as const;\n\x7d\n" : String) =
      "  " ++ "] as const;" ++ "\n" ++ ("\x7d" ++ "" ++ "\n") := by decide
  have hbody : (⟨0, "return ["⟩ :: (rows.flatMap row).map (Line.indent 1) ++
      [⟨0, "] as const;"⟩] : List Line) =
      [⟨0, "return ["⟩] ++ (rows.flatMap row).map (Line.indent 1) ++ [⟨0, "] as const;"⟩] := rfl
  rw [lines, renderLines_block, if_neg hheader, hbody, renderLines_append, renderLines_append,
    hrows, renderLines_text "" rfl (by decide),
    renderLines_text "  " (by decide) (by decide),
    renderLines_text "  " (by decide) (by decide),
    renderLines_text "" rfl (by decide), hopening, hclosing]
  simp only [String.empty_append, String.append_assoc]

/-- **The text of a declaration** is what its lines come to. -/
theorem renderLines_lines (d : Declaration) : renderLines 0 d.lines = d.source := by
  match d with
  | interface name parameters none members => exact renderLines_interface name parameters members
  | interface name parameters (some ⟨base, omitted⟩) members =>
    exact renderLines_interface_extends name parameters base omitted members
  | typeAlias name parameters definition => exact renderLines_typeAlias name parameters definition
  | attributeValue name members => exact renderLines_attributeValue name members
  | configurationTable rows => exact renderLines_configurationTable rows

theorem renderLines_flatMap_lines (ds : List Declaration) :
    renderLines 0 (ds.flatMap lines) = sourceOfAll ds := by
  rw [renderLines_flatMap, sourceOfAll]
  exact congrArg String.join (List.map_congr_left fun d _ => renderLines_lines d)

end Declaration

/-! ### Whole sources -/

theorem renderLines_preambleLines (comments : List String) :
    renderLines 0 (preambleLines comments) = String.join (comments.map (· ++ "\n")) ++ "\n" := by
  rw [preambleLines, renderLines_append, renderLines_margin]
  rfl

theorem renderLines_trailerLines_messages (messages : List String) :
    renderLines 0 (trailerLines messages) =
      if messages = [] then ""
      else "\n// Errors:\n" ++ String.join (messages.map (fun m => "// " ++ m ++ "\n")) := by
  cases messages with
  | nil => rfl
  | cons m rest =>
    have hlines : trailerLines (m :: rest) =
        ("" :: "// Errors:" :: (m :: rest).map ("// " ++ ·)).map (⟨0, ·⟩) := by
      simp [trailerLines]
    rw [hlines, renderLines_margin, if_neg (List.cons_ne_nil m rest)]
    simp only [List.map_cons, List.map_map, Function.comp_def, String.join_cons,
      String.empty_append]
    exact String.append_assoc.symm

namespace Artifact

theorem renderLines_blockLines_eq (block : List Declaration) :
    renderLines 0 (blockLines block) = sourceOfAll block ++ "\n" := by
  rw [blockLines, renderLines_append, Declaration.renderLines_flatMap_lines]
  rfl

theorem renderLines_blocks_eq (a : Artifact) :
    renderLines 0 (a.blocks.flatMap blockLines) =
      String.join (a.entities.map (fun d => d.source ++ "\n"))
        ++ String.join (a.lookups.map (fun ds => sourceOfAll ds ++ "\n")) := by
  rw [renderLines_flatMap, blocks, List.map_append, String.join_append, List.map_map]
  simp only [Function.comp_def, renderLines_blockLines_eq, sourceOfAll_singleton]

/-- **A source is the texts of its parts**, one after the other. -/
theorem text_eq_source (a : Artifact) : a.text = a.source := by
  rw [text, lines, renderLines_append, renderLines_append, renderLines_append,
    renderLines_preambleLines, renderLines_blocks_eq, Declaration.renderLines_flatMap_lines,
    renderLines_trailerLines_messages]
  simp only [source, String.append_assoc]

end Artifact

/-- What a run gives is the text of its source. -/
theorem Generation.Output.text_eq_source {o : Output} {a : Artifact} (ha : o.artifact = some a) :
    o.text = a.source := by
  rw [text, ha, Option.map_some, Option.getD_some, a.text_eq_source]

/-! ### What a text declares -/

/-- The text declares the name: it begins with `export`, the kind of declaration and the name, up to
a space or an opening bracket. -/
def Declares (source name : String) : Prop :=
  ∃ opening ∈ ["export interface ", "export type ", "export function "], ∃ stop ∈ [" ", "<", "("],
    (opening ++ name ++ stop).toList <+: source.toList

instance (source name : String) : Decidable (Declares source name) := by
  unfold Declares
  infer_instance

/-- What a name is followed by ends it. -/
def EndsName (rest : String) : Prop := ∃ stop ∈ [" ", "<", "("], stop.toList <+: rest.toList

instance (rest : String) : Decidable (EndsName rest) := by
  unfold EndsName
  infer_instance

theorem EndsName.append {s : String} (h : EndsName s) (t : String) : EndsName (s ++ t) := by
  obtain ⟨stop, hstop, hs⟩ := h
  exact ⟨stop, hstop, String.toList_append ▸ hs.trans (List.prefix_append _ _)⟩

theorem declares_append {opening : String}
    (hopening : opening ∈ ["export interface ", "export type ", "export function "])
    (name : String) {rest : String} (h : EndsName rest) : Declares (opening ++ name ++ rest) name := by
  obtain ⟨stop, hstop, hs⟩ := h
  refine ⟨opening, hopening, stop, hstop, ?_⟩
  rw [String.toList_append, String.toList_append (s := opening ++ name),
    List.prefix_append_right_inj]
  exact hs

namespace Declaration

/-- Parameters, if there are any, stand in brackets. -/
def HasBracketedParameters : Declaration → Prop
  | interface _ parameters _ _ | typeAlias _ parameters _ => parameters = "" ∨ EndsName parameters
  | attributeValue _ _ | configurationTable _ => True

/-- **A declaration declares its name.** -/
theorem declares_source {d : Declaration} (h : d.HasBracketedParameters) :
    Declares d.source d.name := by
  have hends {parameters : String} (h : parameters = "" ∨ EndsName parameters) {next : String}
      (hnext : EndsName next) (rest : String) : EndsName (parameters ++ (next ++ rest)) := by
    rcases h with rfl | hparameters
    · rw [String.empty_append]
      exact hnext.append rest
    · exact hparameters.append _
  match d with
  | interface name parameters none members =>
    have hsource : (interface name parameters none members).source =
        "export interface " ++ name ++ (parameters ++ (" \x7b\n" ++
          (String.join (members.map Member.source) ++ "\x7d\n"))) := by
      unfold source
      simp only [String.append_assoc]
    rw [hsource]
    exact declares_append (by decide) name (hends h (by decide) _)
  | interface name parameters (some ⟨base, omitted⟩) members =>
    have hsource : (interface name parameters (some ⟨base, omitted⟩) members).source =
        "export interface " ++ name ++ (parameters ++ (" extends Omit<" ++ (base ++ (", "
          ++ (" | ".intercalate (omitted.map (fun m => "\"" ++ m ++ "\"")) ++ ("> \x7b\n"
          ++ (String.join (members.map Member.source) ++ "\x7d\n"))))))) := by
      unfold source
      simp only [String.append_assoc]
    rw [hsource]
    exact declares_append (by decide) name (hends h (by decide) _)
  | typeAlias name parameters definition =>
    have hsource : (typeAlias name parameters definition).source =
        "export type " ++ name ++ (parameters ++ (" = " ++ (definition ++ ";\n"))) := by
      unfold source
      simp only [String.append_assoc]
    rw [hsource]
    exact declares_append (by decide) name (hends h (by decide) _)
  | attributeValue name members =>
    have hsource : (attributeValue name members).source = "export type " ++ name ++
        (" = Omit<ContextCustomAttributeValue, \"key\" | \"value\"> & \x7b\n" ++
          (String.join (members.map Member.source) ++ "\x7d;\n")) := by
      unfold source
      simp only [String.append_assoc]
    rw [hsource]
    exact declares_append (by decide) name (.append (by decide) _)
  | configurationTable rows =>
    have hopening : ("export function getAttributeConfigurations() \x7b\n  return [\n" : String) =
        "export function " ++ configurationTableName ++ "() \x7b\n  return [\n" := by decide
    have hsource : (configurationTable rows).source =
        "export function " ++ configurationTableName ++ ("() \x7b\n  return [\n" ++
          (String.join (rows.map AttributeConfiguration.source) ++ "  ] as const;\n\x7d\n")) := by
      unfold source
      simp only [hopening, String.append_assoc]
    rw [hsource]
    exact declares_append (by decide) _ (.append (by decide) _)

end Declaration

/-- `LinksTo source target`: the text declares a type that is built on another. -/
inductive LinksTo : String → String → Prop where
  /-- An interface extends the other type without some of its members. -/
  | extending (name parameters target omitted members : String) :
      LinksTo ("export interface " ++ name ++ parameters ++ " extends Omit<" ++ target ++ ", "
        ++ omitted ++ "> \x7b\n" ++ members ++ "\x7d\n") target
  /-- A subtype is the root applied to its own name. -/
  | applying (name : String) :
      LinksTo ("export type " ++ name ++ " = TypedContext<\"" ++ name ++ "\">;\n") "TypedContext"

end EntityTypings
