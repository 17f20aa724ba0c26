import EntityTypings.Proofs.Assembly
import EntityTypings.Proofs.Reports

/-!
# Comments line by line

The preamble and the trailer of a source are meant as comments. They are written as texts that
start with `//`, each with a line break behind it, but the texts have parts that are taken over as
they are: the version and the address of the server, and in messages the names of properties and
the ids of schemas. A line break in one of these ends the comment, and what follows it stands in
the source as a line of its own.

Here a source is cut into lines (`LineBreaks.lines`), and the main statement,
`comments_of_generate`, says exactly when the preamble and the trailer consist of comments: if
and only if every line break in what is taken over is followed by `//`. Messages are repeated line
by line, one to each, if and only if they have no line breaks. `escaped_comments` is a run where
code gets into the source in both places.

Which characters end a line is a parameter, since not all readers of a source agree on it. All
that is needed is that a line feed does and that the printable characters of ASCII do not.
-/

namespace EntityTypings

/-! ### Printable texts -/

/-- Whether a character is a printable one of ASCII. -/
def isPrintableChar (c : Char) : Bool := 32 ≤ c.toNat && c.toNat ≤ 126

/-- Every character of the text is a printable one. -/
def IsPrintable (t : String) : Prop := ∀ c ∈ t.toList, isPrintableChar c = true

instance (t : String) : Decidable (IsPrintable t) := List.decidableBAll _ t.toList

theorem isPrintable_append_iff {s t : String} :
    IsPrintable (s ++ t) ↔ IsPrintable s ∧ IsPrintable t := by
  simp only [IsPrintable, String.toList_append, List.forall_mem_append]

theorem isPrintableChar_of_isDigit {c : Char} (h : c.isDigit = true) : isPrintableChar c = true := by
  simp only [Char.isDigit, Bool.and_eq_true, decide_eq_true_eq] at h
  have hlow : 48 ≤ c.toNat := h.1
  have hhigh : c.toNat ≤ 57 := h.2
  simp only [isPrintableChar, Bool.and_eq_true, decide_eq_true_eq]
  omega

namespace Timestamp

theorem isPrintable_padded (width n : Nat) : IsPrintable (padded width n) := by
  rw [IsPrintable, padded, String.toList_ofList, List.forall_mem_append]
  constructor
  · intro c hc
    rw [List.eq_of_mem_replicate hc]
    decide
  · intro c hc
    apply isPrintableChar_of_isDigit
    rw [Nat.toString_eq_repr, Nat.toList_repr] at hc
    exact Nat.isDigit_of_mem_toDigits (by omega) (by omega) hc

theorem isPrintable_yearText (year : Int) : IsPrintable (yearText year) := by
  unfold yearText
  split
  · exact isPrintable_padded _ _
  · refine isPrintable_append_iff.2 ⟨?_, isPrintable_padded _ _⟩
    split <;> decide

/-- The text of an instant has printable characters only. -/
theorem isPrintable_text (t : Timestamp) : IsPrintable t.text := by
  simp only [text, isPrintable_append_iff, isPrintable_padded, isPrintable_yearText, true_and,
    and_true]
  decide

end Timestamp

/-! ### Lines of a text -/

/-- The characters that end a line. -/
structure LineBreaks where
  /-- Whether a character ends a line. -/
  ends : Char → Bool
  /-- A line feed does. -/
  lineFeed : ends '\n' = true
  /-- Printable characters do not. -/
  printable : ∀ c : Char, isPrintableChar c = true → ends c = false

namespace LineBreaks

/-- Lines that only a line feed ends. -/
def lineFeeds : LineBreaks where
  ends c := c = '\n'
  lineFeed := rfl
  printable c hc := by
    rw [decide_eq_false_iff_not]
    rintro rfl
    exact absurd hc (by decide)

/-- Lines that also a carriage return or a separator of lines or paragraphs ends, each on its own. -/
def separators : LineBreaks where
  ends c := c ∈ ['\n', '\r', '\u2028', '\u2029']
  lineFeed := rfl
  printable c hc := by
    rw [decide_eq_false_iff_not]
    intro hmem
    simp only [List.mem_cons, List.not_mem_nil, or_false] at hmem
    rcases hmem with rfl | rfl | rfl | rfl <;> exact absurd hc (by decide)

variable (b : LineBreaks)

/-- The parts of a text between its line breaks. -/
def parts (t : String) : List (List Char) := t.toList.splitOnP b.ends

/-- The lines of a text that ends with a line break. -/
def lines (t : String) : List (List Char) := (b.parts t).dropLast

/-- The text has no line breaks. -/
def Free (t : String) : Prop := ∀ c ∈ t.toList, b.ends c = false

instance (t : String) : Decidable (b.Free t) := List.decidableBAll _ t.toList

variable {b : LineBreaks} {s t : String}

theorem Free.of_isPrintable (h : IsPrintable t) : b.Free t := by
  intro c hc
  exact b.printable c (h c hc)

theorem free_append_iff : b.Free (s ++ t) ↔ b.Free s ∧ b.Free t := by
  simp only [Free, String.toList_append, List.forall_mem_append]

/-- A text without line breaks is its only part, and no other text is. -/
theorem parts_eq_singleton_iff : b.parts t = [t.toList] ↔ b.Free t := by
  refine ⟨fun h => ?_, fun h => List.splitOnP_eq_singleton h⟩
  unfold parts at h
  unfold Free
  generalize t.toList = cs at h
  induction cs with
  | nil => simp
  | cons c cs ih =>
    rw [List.splitOnP_cons_eq_if_modifyHead] at h
    split at h
    · simp at h
    · rename_i hc
      obtain ⟨p, ps, hps⟩ := List.exists_cons_of_ne_nil (List.splitOnP_ne_nil b.ends cs)
      rw [hps, List.modifyHead_cons, List.cons.injEq, List.cons.injEq] at h
      obtain ⟨⟨-, rfl⟩, rfl⟩ := h
      exact List.forall_mem_cons.2 ⟨by simpa using hc, ih hps⟩

/-- A line feed separates the parts before it from those behind it. -/
theorem parts_lineFeed (s t : String) : b.parts (s ++ "\n" ++ t) = b.parts s ++ b.parts t := by
  unfold parts
  rw [String.append_assoc, String.toList_append, String.toList_append]
  exact List.splitOnP_append_cons _ _ b.lineFeed

end LineBreaks

/-! ### Lines of a source -/

/-- The line as text, without its line break. -/
def Line.content (l : Line) : String :=
  if l.text = "" then "" else String.ofList (List.replicate (2 * l.depth) ' ') ++ l.text

theorem Line.render_eq (l : Line) : l.render = l.content ++ "\n" := by
  unfold render content
  split <;> simp

@[simp] theorem Line.content_margin (t : String) : Line.content ⟨0, t⟩ = t := by
  by_cases ht : t = "" <;> simp [content, ht]

namespace LineBreaks

variable {b : LineBreaks}

theorem parts_renderLines_append (ls : List Line) (t : String) :
    b.parts (renderLines 0 ls ++ t) = ls.flatMap (fun l => b.parts l.content) ++ b.parts t := by
  induction ls with
  | nil => simp
  | cons l ls ih =>
    have hcons : renderLines 0 (l :: ls) = l.content ++ "\n" ++ renderLines 0 ls := by
      rw [← Line.render_eq]
      simp [renderLines, Line.indent]
    rw [hcons, String.append_assoc, parts_lineFeed, ih, List.flatMap_cons, List.append_assoc]

/-- The lines of a source are those of what it writes as lines, which can be more than one for
each. -/
theorem lines_renderLines (ls : List Line) :
    b.lines (renderLines 0 ls) = ls.flatMap (fun l => b.parts l.content) := by
  have hparts := parts_renderLines_append (b := b) ls ""
  rw [String.append_empty] at hparts
  rw [lines, hparts, parts, String.toList_empty, List.splitOnP_nil, List.dropLast_concat]

end LineBreaks

/-! ### Comments -/

/-- What a comment starts with. -/
def commentMark : String := "//"

/-- The line is a comment. -/
def IsComment (line : List Char) : Prop := commentMark.toList <+: line

instance (line : List Char) : Decidable (IsComment line) :=
  decidable_of_iff _ List.isPrefixOf_iff_prefix

namespace LineBreaks

/-- Whether every line break is followed by the mark of a comment. -/
def staysComment (b : LineBreaks) : List Char → Bool
  | [] => true
  | c :: cs => (!b.ends c || commentMark.toList.isPrefixOf cs) && b.staysComment cs

/-- A text that stands in a comment makes only comments of its further lines. -/
def Commented (b : LineBreaks) (t : String) : Prop := b.staysComment t.toList = true

instance (b : LineBreaks) (t : String) : Decidable (b.Commented t) := instDecidableEqBool _ _

variable {b : LineBreaks}

theorem staysComment_append_of_free {cs : List Char} (h : ∀ c ∈ cs, b.ends c = false)
    (ds : List Char) : b.staysComment (cs ++ ds) = b.staysComment ds := by
  induction cs with
  | nil => rfl
  | cons c cs ih =>
    obtain ⟨hc, hcs⟩ := List.forall_mem_cons.1 h
    rw [List.cons_append, staysComment, hc, ih hcs, Bool.not_false, Bool.true_or, Bool.true_and]

/-- A space can neither end a line nor be part of the mark of a comment. -/
theorem staysComment_append_space (cs ds : List Char) :
    b.staysComment (cs ++ ' ' :: ds) = (b.staysComment cs && b.staysComment (' ' :: ds)) := by
  induction cs with
  | nil => rfl
  | cons c cs ih =>
    have hmark : commentMark.toList.isPrefixOf (cs ++ ' ' :: ds) =
        commentMark.toList.isPrefixOf cs := by
      match cs with
      | [] => rfl
      | [d] => simp [commentMark, List.isPrefixOf]
      | d :: e :: cs => simp [commentMark, List.isPrefixOf]
    rw [List.cons_append, staysComment, ih, hmark, ← Bool.and_assoc, ← staysComment]

/-- The first part of a text starts with the same marks without line breaks as the text. -/
theorem isPrefix_head_iff {cs part : List Char} {rest : List (List Char)}
    (h : cs.splitOnP b.ends = part :: rest) {mark : List Char}
    (hmark : ∀ c ∈ mark, b.ends c = false) : mark <+: part ↔ mark <+: cs := by
  induction cs generalizing part rest mark with
  | nil =>
    rw [List.splitOnP_nil, List.cons.injEq] at h
    rw [← h.1]
  | cons c cs ih =>
    cases mark with
    | nil => simp
    | cons m mark =>
      obtain ⟨hm, hmark⟩ := List.forall_mem_cons.1 hmark
      rw [List.splitOnP_cons_eq_if_modifyHead] at h
      split at h
      · rename_i hc
        rw [List.cons.injEq] at h
        have hne : m ≠ c := by
          rintro rfl
          rw [hm] at hc
          cases hc
        simp [← h.1, List.cons_prefix_cons, hne]
      · obtain ⟨first, others, hparts⟩ :=
          List.exists_cons_of_ne_nil (List.splitOnP_ne_nil b.ends cs)
        rw [hparts, List.modifyHead_cons, List.cons.injEq] at h
        rw [← h.1, List.cons_prefix_cons, List.cons_prefix_cons, ih hparts hmark]

theorem isComment_head_iff {cs part : List Char} {rest : List (List Char)}
    (h : cs.splitOnP b.ends = part :: rest) : IsComment part ↔ IsComment cs :=
  isPrefix_head_iff h (Free.of_isPrintable (by decide : IsPrintable commentMark))

/-- The further parts of a text are comments if it stays one at its line breaks. -/
theorem forall_isComment_tail_iff {cs part : List Char} {rest : List (List Char)}
    (h : cs.splitOnP b.ends = part :: rest) :
    (∀ line ∈ rest, IsComment line) ↔ b.staysComment cs = true := by
  induction cs generalizing part rest with
  | nil =>
    rw [List.splitOnP_nil, List.cons.injEq] at h
    simp [← h.2, staysComment]
  | cons c cs ih =>
    obtain ⟨first, others, hparts⟩ :=
      List.exists_cons_of_ne_nil (List.splitOnP_ne_nil b.ends cs)
    rw [List.splitOnP_cons_eq_if_modifyHead, hparts] at h
    rw [staysComment, Bool.and_eq_true, ← ih hparts]
    split at h
    · rename_i hc
      obtain ⟨-, rfl⟩ := List.cons.inj h
      rw [List.forall_mem_cons, isComment_head_iff hparts, hc, Bool.not_true, Bool.false_or,
        List.isPrefixOf_iff_prefix, IsComment]
    · rename_i hc
      obtain ⟨-, rfl⟩ := List.cons.inj h
      simp [hc]

/-- The parts of a text are comments if it starts as one and stays one at its line breaks. -/
theorem forall_isComment_parts_iff {t : String} :
    (∀ line ∈ b.parts t, IsComment line) ↔ IsComment t.toList ∧ b.Commented t := by
  obtain ⟨part, rest, hparts⟩ :=
    List.exists_cons_of_ne_nil (List.splitOnP_ne_nil b.ends t.toList)
  rw [parts, hparts, List.forall_mem_cons, isComment_head_iff hparts,
    forall_isComment_tail_iff hparts, Commented]

theorem Free.commented {t : String} (h : b.Free t) : b.Commented t := by
  simpa [Commented, staysComment] using staysComment_append_of_free h []

theorem Free.commented_append_iff {s t : String} (h : b.Free s) :
    b.Commented (s ++ t) ↔ b.Commented t := by
  rw [Commented, Commented, String.toList_append, staysComment_append_of_free h]

/-- Of two texts behind given words, each stays a comment for itself, if a space is between. -/
theorem commented_between_iff {s m t u : String} (hs : b.Free s) (hm : b.Free m)
    (hspace : m.toList.head? = some ' ') :
    b.Commented (s ++ t ++ m ++ u) ↔ b.Commented t ∧ b.Commented u := by
  obtain ⟨rest, hrest⟩ := List.head?_eq_some_iff.1 hspace
  have hmu : b.staysComment (' ' :: (rest ++ u.toList)) = b.staysComment u.toList := by
    rw [← List.cons_append, ← hrest, staysComment_append_of_free hm]
  rw [String.append_assoc, String.append_assoc, hs.commented_append_iff, Commented,
    String.toList_append, String.toList_append, hrest, List.cons_append,
    staysComment_append_space, hmu, Bool.and_eq_true, Commented, Commented]

end LineBreaks

theorem IsComment.append {s : String} (h : IsComment s.toList) (t : String) :
    IsComment (s ++ t).toList := by
  rw [String.toList_append]
  exact List.prefix_append_of_prefix h

/-- As many non-empty lists as elements are one for each. -/
theorem flatMap_eq_map_iff {α β : Type} {f : α → List β} {g : α → β} {l : List α}
    (hf : ∀ a ∈ l, f a ≠ []) : l.flatMap f = l.map g ↔ ∀ a ∈ l, f a = [g a] := by
  have hlength {l : List α} (hl : ∀ a ∈ l, f a ≠ []) : l.length ≤ (l.flatMap f).length := by
    induction l with
    | nil => simp
    | cons a l ih =>
      obtain ⟨ha, hl⟩ := List.forall_mem_cons.1 hl
      have hpos := List.length_pos_iff.2 ha
      have ih := ih hl
      rw [List.flatMap_cons, List.length_append, List.length_cons]
      omega
  induction l with
  | nil => simp
  | cons a l ih =>
    obtain ⟨ha, hl⟩ := List.forall_mem_cons.1 hf
    rw [List.flatMap_cons, List.map_cons]
    constructor
    · intro heq
      obtain ⟨x, xs, hx⟩ := List.exists_cons_of_ne_nil ha
      rw [hx, List.cons_append, List.cons.injEq] at heq
      obtain ⟨rfl, hrest⟩ := heq
      have hle := hlength hl
      have hsum := congrArg List.length hrest
      rw [List.length_append, List.length_map] at hsum
      obtain rfl : xs = [] := List.eq_nil_of_length_eq_zero (by omega)
      exact List.forall_mem_cons.2 ⟨hx, (ih hl).1 hrest⟩
    · intro hall
      obtain ⟨hone, hrest⟩ := List.forall_mem_cons.1 hall
      rw [hone, (ih hl).2 hrest, List.singleton_append]

/-! ### The preamble -/

namespace LineBreaks

variable {b : LineBreaks}

/-- A text that goes on after the start of a comment makes only comments exactly if it stays one. -/
theorem forall_isComment_append_iff {s t : String} (hs : IsComment s.toList) (hfree : b.Free s) :
    (∀ line ∈ b.parts (s ++ t), IsComment line) ↔ b.Commented t := by
  rw [forall_isComment_parts_iff, and_iff_right (hs.append t), hfree.commented_append_iff]

/-- The line on the server consists of comments exactly if version and address stay comments. -/
theorem forall_isComment_server_iff (version url : String) :
    (∀ line ∈ b.parts ("// from an instance running version " ++ version ++ " using server on "
        ++ url), IsComment line) ↔ b.Commented version ∧ b.Commented url := by
  have hstart : IsComment ("// from an instance running version " ++ version
      ++ " using server on " ++ url).toList :=
    (((show IsComment "// from an instance running version ".toList by decide).append _).append
      _).append _
  rw [forall_isComment_parts_iff, and_iff_right hstart,
    commented_between_iff (.of_isPrintable (by decide)) (.of_isPrintable (by decide)) rfl]

/-- The preamble consists of comments exactly if the texts in it stay comments. -/
theorem forall_isComment_preamble_iff (generatedAt : Option Timestamp)
    (version url : Option String) :
    (∀ line ∈ (preamble generatedAt version url).flatMap b.parts, IsComment line) ↔
      ∀ t ∈ version.toList ++ url.toList, b.Commented t := by
  have hgenerated : ∀ comment ∈
      generatedAt.map (fun t => "// Generated on " ++ t.text ++ " using schema"),
      ∀ line ∈ b.parts comment, IsComment line := by
    intro comment hcomment
    obtain ⟨t, -, rfl⟩ := Option.map_eq_some_iff.1 hcomment
    have hprintable : IsPrintable (t.text ++ " using schema") :=
      isPrintable_append_iff.2 ⟨t.isPrintable_text, by decide⟩
    rw [String.append_assoc, forall_isComment_append_iff (by decide) (.of_isPrintable (by decide))]
    exact (Free.of_isPrintable hprintable).commented
  have hlast : ∀ line ∈ b.parts "// Not intended to modify manually", IsComment line :=
    forall_isComment_parts_iff.2 ⟨by decide, (Free.of_isPrintable (by decide)).commented⟩
  have hunknown : b.Commented "unknown" := (Free.of_isPrintable (by decide)).commented
  simp only [preamble, List.flatMap_append, List.forall_mem_append, List.forall_mem_flatMap,
    Option.mem_toList, List.forall_mem_singleton, ← Option.mem_def]
  rw [and_iff_left hlast, and_iff_right hgenerated]
  cases version with
  | none =>
    cases url with
    | none => simp
    | some u => simpa [hunknown] using forall_isComment_server_iff (b := b) "unknown" u
  | some v =>
    cases url with
    | none => simpa [hunknown] using forall_isComment_server_iff (b := b) v "unknown"
    | some u => simpa using forall_isComment_server_iff (b := b) v u

end LineBreaks

/-! ### Messages -/

namespace Generation

/-- A text that messages take over: the name of an untyped property of a declared schema, or the
id of such a schema. -/
def Reported (c : Catalog) (skipped : List String) (t : String) : Prop :=
  ∃ s ∈ c.schemas, isDeclared skipped s = true ∧ s.isSubtype = false ∧
    ∃ name, c.UntypedAt s name ∧ (t = name ∨ t = s.displayId)

variable {c : Catalog} {skipped : List String}

/-- Where a text has a property exactly if the texts that it takes over have it, messages have it
exactly if what they take over does. -/
theorem forall_message_iff {P : String → Prop}
    (hmissing : P Diagnostic.missingSchemaId.message)
    (huntyped : ∀ id name, P (Diagnostic.untypedProperty id name).message ↔ P name ∧ P id) :
    (∀ d ∈ c.schemas.flatMap (reports c skipped), P d.message) ↔
      ∀ t, Reported c skipped t → P t := by
  simp only [List.forall_mem_flatMap]
  constructor
  · rintro h t ⟨s, hs, hdecl, hsub, name, hname, ht⟩
    obtain ⟨hid, hskip⟩ := isDeclared_iff.1 hdecl
    have hmem : Diagnostic.untypedProperty s.displayId name ∈ reports c skipped s := by
      simp only [reports, hid, hskip, hsub, Bool.false_eq_true, or_self, if_false]
      exact List.mem_map_of_mem ((Catalog.mem_untypedNames hsub).2 hname)
    obtain ⟨hname, hid⟩ := (huntyped _ _).1 (h s hs _ hmem)
    rcases ht with rfl | rfl
    · exact hname
    · exact hid
  · intro h s hs d hd
    unfold reports at hd
    split at hd
    · rw [List.mem_singleton.1 hd]
      exact hmissing
    · rename_i id hid
      split at hd
      · cases hd
      · rename_i hcond
        obtain ⟨hskip, hsub⟩ := not_or.1 hcond
        rw [Bool.not_eq_true] at hsub
        obtain ⟨name, hname, rfl⟩ := List.mem_map.1 hd
        have huntypedAt := (Catalog.mem_untypedNames hsub).1 hname
        have hdisplay : s.displayId = id := (Schema.id?_eq_some_iff.1 hid).1
        have hdecl : isDeclared skipped s = true := by simpa [isDeclared, hid] using hskip
        have hreported {t : String} (ht : t = name ∨ t = s.displayId) : P t :=
          h t ⟨s, hs, hdecl, hsub, name, huntypedAt, ht⟩
        exact (huntyped _ _).2 ⟨hreported (.inl rfl), hreported (.inr hdisplay.symm)⟩

end Generation

namespace LineBreaks

variable {b : LineBreaks}

theorem message_untypedProperty (id name : String) :
    (Diagnostic.untypedProperty id name).message =
      "No type or $ref defined for property " ++ name ++ " in schema " ++ id := rfl

theorem free_untypedProperty_iff (id name : String) :
    b.Free (Diagnostic.untypedProperty id name).message ↔ b.Free name ∧ b.Free id := by
  have hstart : b.Free "No type or $ref defined for property " := .of_isPrintable (by decide)
  have hbetween : b.Free " in schema " := .of_isPrintable (by decide)
  simp only [message_untypedProperty, free_append_iff, hstart, hbetween, true_and, and_true]

theorem commented_untypedProperty_iff (id name : String) :
    b.Commented (Diagnostic.untypedProperty id name).message ↔ b.Commented name ∧ b.Commented id := by
  rw [message_untypedProperty,
    commented_between_iff (.of_isPrintable (by decide)) (.of_isPrintable (by decide)) rfl]

/-- A message is one line of the trailer exactly if it has no line breaks. -/
theorem parts_message_iff (m : String) :
    b.parts ("// " ++ m) = [("// " ++ m).toList] ↔ b.Free m := by
  have hmark : b.Free "// " := .of_isPrintable (by decide)
  rw [parts_eq_singleton_iff, free_append_iff, and_iff_right hmark]

/-! ### The whole source -/

/-- The lines of a source are those of the preamble, an empty one, those of declarations, and, if
there are problems, an empty one, a heading and those of the messages. -/
theorem exists_lines_text (a : Artifact) : ∃ below, b.lines a.text =
    a.preamble.flatMap b.parts ++ [] :: below ++
      if a.messages = [] then []
      else [] :: "// Errors:".toList :: a.messages.flatMap (fun m => b.parts ("// " ++ m)) := by
  have hempty : b.parts "" = [[]] := parts_eq_singleton_iff.2 (.of_isPrintable (by decide))
  have hheading : b.parts "// Errors:" = ["// Errors:".toList] :=
    parts_eq_singleton_iff.2 (.of_isPrintable (by decide))
  have htrailer : (trailerLines a.messages).flatMap (fun l => b.parts l.content) =
      if a.messages = [] then []
      else [] :: "// Errors:".toList :: a.messages.flatMap (fun m => b.parts ("// " ++ m)) := by
    unfold trailerLines
    by_cases hnil : a.messages = []
    · simp [hnil]
    · simp only [List.isEmpty_iff, hnil, if_false, List.flatMap_cons, List.flatMap_map,
        Line.content_margin, hempty, hheading, List.singleton_append]
  have hpreamble : (preambleLines a.preamble).flatMap (fun l => b.parts l.content) =
      a.preamble.flatMap b.parts ++ [[]] := by
    simp only [preambleLines, List.flatMap_append, List.flatMap_map, List.flatMap_singleton,
      Line.content_margin, hempty]
  refine ⟨(a.blocks.flatMap Artifact.blockLines ++ a.attributes.flatMap Declaration.lines).flatMap
    (fun l => b.parts l.content), ?_⟩
  rw [Artifact.text, lines_renderLines, Artifact.lines, List.append_assoc (preambleLines _),
    List.flatMap_append, List.flatMap_append, hpreamble, htrailer, List.append_assoc _ [[]]]
  rfl

end LineBreaks

open Generation

/-- A source starts with the comments that the options give, and repeats what is reported. -/
theorem preamble_of_generate {options : Options} {schemas : List Schema}
    {configurations : List AttributeConfiguration} {o : Output} (hne : schemas ≠ [])
    (h : generate options schemas configurations = .ok o) :
    ∃ a : Artifact, o.text = a.text ∧ a.messages = o.errors ∧
      a.preamble = preamble options.generatedAt options.serverVersion options.serverUrl := by
  rw [generate_of_ne_nil options configurations hne] at h
  split at h
  · cases h
  · cases h
    exact ⟨_, rfl, rfl, rfl⟩

/-- **When preamble and trailer consist of comments.** However lines are ended, those of a source
start with the lines of the preamble and an empty line. If there are problems they end with an
empty line, a heading, and the lines of the messages, each of which is put behind `//`. The lines
of the preamble are all comments exactly if in version and address of the server every line break
is followed by `//`, and so are those of the messages exactly if this holds of the ids of schemas
and names of properties that they take over. There is one line for each message exactly if these
have no line breaks. -/
theorem comments_of_generate (b : LineBreaks) {options : Options} {schemas : List Schema}
    {configurations : List AttributeConfiguration} {o : Output} (hne : schemas ≠ [])
    (h : generate options schemas configurations = .ok o) :
    let header := (preamble options.generatedAt options.serverVersion options.serverUrl).flatMap
      b.parts
    let further := o.errors.flatMap (fun m => b.parts ("// " ++ m))
    (∃ below, b.lines o.text = header ++ [] :: below ++
      if o.errors = [] then [] else [] :: "// Errors:".toList :: further) ∧
    ((∀ line ∈ header, IsComment line) ↔
      ∀ t ∈ options.serverVersion.toList ++ options.serverUrl.toList, b.Commented t) ∧
    ((∀ line ∈ further, IsComment line) ↔
      ∀ t, Reported ⟨schemas⟩ options.skipped t → b.Commented t) ∧
    (further = o.errors.map (fun m => ("// " ++ m).toList) ↔
      ∀ t, Reported ⟨schemas⟩ options.skipped t → b.Free t) := by
  intro header further
  have herrors (P : String → Prop) : (∀ m ∈ o.errors, P m) ↔
      ∀ d ∈ schemas.flatMap (reports ⟨schemas⟩ options.skipped), P d.message := by
    rw [Output.errors, Diagnostics.messages, List.forall_mem_map, items_of_generate h hne]
  have hmark : IsComment "// ".toList := by decide
  have hmissing : b.Free Diagnostic.missingSchemaId.message := .of_isPrintable (by decide)
  refine ⟨?_, LineBreaks.forall_isComment_preamble_iff _ _ _, ?_, ?_⟩
  · obtain ⟨a, htext, hmessages, hpreamble⟩ := preamble_of_generate hne h
    obtain ⟨below, hlines⟩ := LineBreaks.exists_lines_text (b := b) a
    rw [hmessages, hpreamble] at hlines
    exact ⟨below, htext ▸ hlines⟩
  · simp only [further, List.forall_mem_flatMap]
    rw [herrors (fun m => ∀ line ∈ b.parts ("// " ++ m), IsComment line), ← forall_message_iff
      hmissing.commented LineBreaks.commented_untypedProperty_iff]
    simp only [LineBreaks.forall_isComment_append_iff hmark (.of_isPrintable (by decide))]
  · have hparts : ∀ m ∈ o.errors, b.parts ("// " ++ m) ≠ [] := fun m _ =>
      List.splitOnP_ne_nil _ _
    rw [flatMap_eq_map_iff hparts]
    simp only [LineBreaks.parts_message_iff]
    rw [herrors, forall_message_iff hmissing LineBreaks.free_untypedProperty_iff]

/-- A version with a line break that stays a comment. -/
def betaOptions : Options :=
  { Options.withoutLegacy with serverVersion := some "5.0\n// beta" }

/-- All lines of the preamble are comments, also that in the version, and each message is a line. -/
theorem comments_of_notedCatalog :
    let header := (preamble none (some "5.0\n// beta") none).flatMap LineBreaks.separators.parts
    ∃ o, notedCatalog ≠ [] ∧ generate betaOptions notedCatalog [] = .ok o ∧
      header.length = 3 ∧ (∀ line ∈ header, IsComment line) ∧ o.errors.length = 2 ∧
      o.errors.flatMap (fun m => LineBreaks.separators.parts ("// " ++ m)) =
        o.errors.map (fun m => ("// " ++ m).toList) := by
  intro header
  have hne : notedCatalog ≠ [] := List.cons_ne_nil _ _
  obtain ⟨o, ho, hcount⟩ : ∃ o, generate betaOptions notedCatalog [] = .ok o ∧
      o.errors.length = 2 := ⟨_, rfl, rfl⟩
  obtain ⟨-, hheader, -, hfurther⟩ := comments_of_generate LineBreaks.separators hne ho
  have hfree : ∀ t, Reported ⟨notedCatalog⟩ betaOptions.skipped t → LineBreaks.separators.Free t :=
    (forall_message_iff (by decide) LineBreaks.free_untypedProperty_iff).1 (by decide +kernel)
  exact ⟨o, hne, ho, by decide +kernel, hheader.2 (by decide), hcount, hfurther.2 hfree⟩

/-- A version with a line break behind which code follows. -/
def brokenOptions : Options :=
  { Options.default with serverVersion := some "5.0\ntype X = any; //" }

/-- A schema with such a line break in the name of a property. -/
def brokenCatalog : List Schema := [.plain "Asset" none [("note\ntype Y = any; //", .object [])]]

/-- **Comments can be escaped from**: what follows a line break in the version or in the name of a
property stands in the source as code, and one message gives two lines. -/
theorem escaped_comments :
    ∃ o below, generate brokenOptions brokenCatalog [] = .ok o ∧ o.errors.length = 1 ∧
      LineBreaks.lineFeeds.lines o.text =
        ["// from an instance running version 5.0", "type X = any; // using server on unknown",
          "// Not intended to modify manually", ""].map String.toList ++ below ++
        ["", "// Errors:", "// No type or $ref defined for property note",
          "type Y = any; // in schema Asset"].map String.toList := by
  obtain ⟨o, ho, herrors⟩ : ∃ o, generate brokenOptions brokenCatalog [] = .ok o ∧
      o.errors = [(Diagnostic.untypedProperty "Asset" "note\ntype Y = any; //").message] :=
    ⟨_, rfl, rfl⟩
  obtain ⟨a, htext, hmessages, hpreamble⟩ := preamble_of_generate (List.cons_ne_nil _ _) ho
  obtain ⟨below, hlines⟩ := LineBreaks.exists_lines_text (b := LineBreaks.lineFeeds) a
  have hheader : (preamble none (some "5.0\ntype X = any; //") none).flatMap
      LineBreaks.lineFeeds.parts = ["// from an instance running version 5.0",
        "type X = any; // using server on unknown",
        "// Not intended to modify manually"].map String.toList := by decide +kernel
  have hfurther : LineBreaks.lineFeeds.parts
      ("// " ++ (Diagnostic.untypedProperty "Asset" "note\ntype Y = any; //").message) =
      ["// No type or $ref defined for property note",
        "type Y = any; // in schema Asset"].map String.toList := by decide +kernel
  refine ⟨o, below, ho, by rw [herrors, List.length_singleton], ?_⟩
  rw [htext, hlines, hmessages, hpreamble, herrors, List.flatMap_singleton, hfurther]
  simp only [brokenOptions, Options.default, hheader]
  rfl

end EntityTypings
