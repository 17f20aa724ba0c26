import EntityTypings.Proofs.QuotedTexts
import EntityTypings.Toml.Reader

/-!
# Statements that are written

What is written for sections is read as statements: a header for each section and an assignment for
each of its entries (`lists_render`), if their names can stand without quotes.

Each part that is written is read up to what follows it: values (`value_plain`), keys (`key_bare`)
and statements (`statement_header`, `statement_assignment`). `Lists` puts statements together
without a budget, so that a document is gone through line by line and section by section.
-/

namespace EntityTypings.Toml

open Reader Writer

/-! ### Texts -/

section

variable {next : Char} {budget depth : Nat}

/-- A text that starts with a quote of either kind is read as a string. -/
theorem value_quoted {c : Char} (h : c = '"' ∨ c = '\'') (t : List Char) :
    value (budget + 1) depth (c :: t) =
      (string? (c :: t)).map fun (cs, r) => (.string (String.ofList cs), r) := by
  rcases h with rfl | rfl
  · rfl
  · rfl

theorem toList_string (s : String) :
    (Writer.string s).toList = styled s.toList (styleOf s.toList) := String.toList_ofList

/-- Whatever its style, a text starts with a quote of one kind. -/
theorem exists_string_eq_cons (s : String) :
    ∃ c t, (Writer.string s).toList = c :: t ∧ (c = '"' ∨ c = '\'') := by
  rw [toList_string]
  cases styleOf s.toList with
  | basic | basicLines => exact ⟨_, _, rfl, .inl rfl⟩
  | literal | literalLines => exact ⟨_, _, rfl, .inr rfl⟩

theorem value_string (s : String) (hquote : next ≠ '"') (hapostrophe : next ≠ '\'')
    (rest : List Char) :
    value (budget + 1) depth ((Writer.string s).toList ++ next :: rest) =
      some (.string s, next :: rest) := by
  have hread := string?_styled s.toList rest hquote hapostrophe
  obtain ⟨c, t, heq, hc⟩ := exists_string_eq_cons s
  rw [← toList_string, heq, List.cons_append] at hread
  rw [heq, List.cons_append, value_quoted hc, hread, Option.map_some]
  simp only [String.ofList_toList]

/-- Nothing is skipped before a text. -/
theorem skipLayout_string (s : String) (rest : List Char) :
    skipLayout false ((Writer.string s).toList ++ rest) = (Writer.string s).toList ++ rest := by
  obtain ⟨c, t, heq, rfl | rfl⟩ := exists_string_eq_cons s
  · rw [heq]
    rfl
  · rw [heq]
    rfl

/-! ### Lists -/

/-- After an element, a comma goes on with the list. -/
theorem items_of_comma {start text t rest : List Char} {v : Toml}
    (hlayout : skipLayout false start = text) (hbracket : ∀ u, text ≠ ']' :: u)
    (hvalue : value budget depth text = some (v, t)) (hcomma : skipLayout false t = ',' :: rest) :
    items (budget + 1) depth start =
      (items budget depth rest).map fun (vs, r) => (v :: vs, r) := by
  rw [items, hlayout]
  split
  · exact absurd rfl (hbracket _)
  · simp only [hvalue, hcomma]

/-- After an element, a bracket ends the list. -/
theorem items_of_bracket {start text t rest : List Char} {v : Toml}
    (hlayout : skipLayout false start = text) (hbracket : ∀ u, text ≠ ']' :: u)
    (hvalue : value budget depth text = some (v, t)) (hend : skipLayout false t = ']' :: rest) :
    items (budget + 1) depth start = some ([v], rest) := by
  rw [items, hlayout]
  split
  · exact absurd rfl (hbracket _)
  · simp only [hvalue, hend]

theorem string_ne_bracket (s : String) (t u : List Char) :
    (Writer.string s).toList ++ t ≠ ']' :: u := by
  obtain ⟨c, t, heq, rfl | rfl⟩ := exists_string_eq_cons s
  · rw [heq]
    intro h
    cases h
  · rw [heq]
    intro h
    cases h

/-- The last element of a list, with the closing bracket after it. -/
theorem items_last (s : String) (rest : List Char) :
    items (budget + 2) depth ((Writer.string s).toList ++ ']' :: rest) =
      some ([.string s], rest) :=
  items_of_bracket (skipLayout_string s _) (string_ne_bracket s _)
    (value_string s (by decide) (by decide) rest) rfl

/-- What stands before an element on its line. -/
def indent : List Char := [' ', ' ', ' ', ' ']

theorem skipLayout_indent (t : List Char) :
    skipLayout false ('\n' :: (indent ++ t)) = skipLayout false t := rfl

/-- An element on a line of its own, with the elements on the lines that follow. -/
theorem items_line (s : String) (t : List Char) :
    items (budget + 2) depth ('\n' :: (indent ++ ((Writer.string s).toList ++ ',' :: t))) =
      (items (budget + 1) depth t).map fun (vs, r) => (.string s :: vs, r) := by
  have hlayout : skipLayout false ('\n' :: (indent ++ ((Writer.string s).toList ++ ',' :: t))) =
      (Writer.string s).toList ++ ',' :: t := by rw [skipLayout_indent, skipLayout_string]
  have hvalue : value (budget + 1) depth ((Writer.string s).toList ++ ',' :: t) =
      some (.string s, ',' :: t) := value_string s (by decide) (by decide) t
  exact items_of_comma hlayout (string_ne_bracket s _) hvalue rfl

/-- The line of an element, with the line break that ends it. -/
def line (s : String) : List Char := indent ++ ((Writer.string s).toList ++ [',', '\n'])

theorem items_lines (ss : List String) (rest : List Char) (hbudget : ss.length + 2 ≤ budget) :
    items budget depth ('\n' :: (ss.flatMap line ++ ']' :: rest)) =
      some (ss.map .string, rest) := by
  induction ss generalizing budget with
  | nil =>
    obtain ⟨budget, rfl⟩ : ∃ b, budget = b + 1 := ⟨budget - 1, by simp at hbudget; omega⟩
    rfl
  | cons s ss ih =>
    rw [List.length_cons] at hbudget
    obtain ⟨budget, rfl⟩ : ∃ b, budget = b + 2 := ⟨budget - 2, by omega⟩
    have htext : '\n' :: ((s :: ss).flatMap line ++ ']' :: rest) = '\n' :: (indent ++
        ((Writer.string s).toList ++ ',' :: '\n' :: (ss.flatMap line ++ ']' :: rest))) := by
      simp [line]
    rw [htext, items_line, ih (by omega)]
    rfl

/-- A list is written with a line for each of several elements. -/
theorem toList_strings (ss : List String) :
    (strings ss).toList = ['[', ']'] ∧ ss = [] ∨
    (∃ s, (strings ss).toList = '[' :: ((Writer.string s).toList ++ [']']) ∧ ss = [s]) ∨
    (strings ss).toList = '[' :: '\n' :: (ss.flatMap line ++ [']']) := by
  unfold strings
  split
  · exact .inl ⟨rfl, rfl⟩
  · refine .inr (.inl ⟨_, ?_, rfl⟩)
    simp
  · refine .inr (.inr ?_)
    have hline (s : String) : ("    " ++ Writer.string s ++ ",\n").toList = line s := by
      simp [line, indent]
    simp [List.flatMap_map, hline]

theorem length_le_flatMap_line (ss : List String) : ss.length ≤ (ss.flatMap line).length := by
  induction ss with
  | nil => exact Nat.le_refl 0
  | cons s ss ih =>
    rw [List.flatMap_cons, List.length_append, List.length_cons]
    have hpos : 1 ≤ (line s).length := by
      simp only [line, List.length_append, List.length_cons]
      omega
    omega

/-- A list is written with more characters than it has elements. -/
theorem length_lt_strings (ss : List String) : ss.length < (strings ss).toList.length := by
  have hlines := length_le_flatMap_line ss
  rcases toList_strings ss with ⟨heq, rfl⟩ | ⟨s, heq, rfl⟩ | heq
  · rw [heq]
    decide
  · rw [heq]
    simp
  · rw [heq]
    simp only [List.length_cons, List.length_append]
    omega

theorem value_bracket (t : List Char) :
    value (budget + 1) (depth + 1) ('[' :: t) =
      (items budget depth t).map fun (vs, r) => (.list vs, r) := rfl

theorem value_strings (ss : List String) (rest : List Char) (hbudget : ss.length + 3 ≤ budget) :
    value budget (depth + 1) ((strings ss).toList ++ rest) =
      some (.list (ss.map .string), rest) := by
  obtain ⟨budget, rfl⟩ : ∃ b, budget = b + 3 := ⟨budget - 3, by omega⟩
  rcases toList_strings ss with ⟨heq, rfl⟩ | ⟨s, heq, rfl⟩ | heq
  · rw [heq]
    rfl
  · rw [heq, List.cons_append, List.append_assoc, value_bracket, List.singleton_append,
      items_last]
    rfl
  · rw [heq, List.cons_append, List.cons_append, List.append_assoc, value_bracket,
      List.singleton_append, items_lines ss rest (by omega)]
    rfl

/-- **A value is read as it is written.** -/
theorem value_plain (v : Plain) (rest : List Char)
    (hbudget : (plain v).toList.length + 2 ≤ budget) :
    value budget (depth + 1) ((plain v).toList ++ '\n' :: rest) =
      some (v.toToml, '\n' :: rest) := by
  obtain ⟨budget, rfl⟩ : ∃ b, budget = b + 1 := ⟨budget - 1, by omega⟩
  cases v with
  | string s => exact value_string s (by decide) (by decide) rest
  | boolean b =>
    cases b with
    | false =>
      have hchars : (plain (.boolean false)).toList = ['f', 'a', 'l', 's', 'e'] := by decide
      rw [hchars]
      rfl
    | true =>
      have hchars : (plain (.boolean true)).toList = ['t', 'r', 'u', 'e'] := by decide
      rw [hchars]
      rfl
  | strings ss =>
    have hlength := length_lt_strings ss
    exact value_strings ss _ (by simp only [plain] at hbudget; omega)

end

/-! ### Keys -/

/-- A name that can stand without quotes. -/
def IsBareName (name : String) : Prop := name ≠ "" ∧ ∀ c ∈ name.toList, isBare c = true

instance : DecidablePred IsBareName := fun name =>
  decidable_of_iff (name ≠ "" ∧ name.toList.all isBare = true) (by simp [IsBareName])

section

variable {name : String}

/-- A name has a first character, which is a bare one. -/
theorem IsBareName.exists_eq_cons (h : IsBareName name) :
    ∃ c cs, name.toList = c :: cs ∧ isBare c = true := by
  cases hchars : name.toList with
  | nil => exact absurd (String.toList_eq_nil_iff.1 hchars) h.1
  | cons c cs => exact ⟨c, cs, rfl, h.2 c (hchars ▸ List.mem_cons_self)⟩

/-- Bare characters open nothing and separate nothing. -/
theorem ne_of_isBare {c d : Char} (h : isBare c = true) (hd : isBare d = false) : c ≠ d := by
  rintro rfl
  rw [h] at hd
  cases hd

theorem isBlank_of_isBare {c : Char} (h : isBare c = true) : isBlank c = false := by
  have hspace : c ≠ ' ' := ne_of_isBare h (by decide)
  have htab : c ≠ '\t' := ne_of_isBare h (by decide)
  simp [isBlank, hspace, htab]

/-- Nothing is skipped before a name. -/
theorem skipLayout_of_isBare {c : Char} (h : isBare c = true) (t : List Char) :
    skipLayout false (c :: t) = c :: t := by
  have hfeed : c ≠ '\n' := ne_of_isBare h (by decide)
  have hcomment : c ≠ '#' := ne_of_isBare h (by decide)
  rw [skipLayout]
  · simp [hfeed, hcomment, isBlank_of_isBare h]
  · intro _ hc
    exact absurd hc (ne_of_isBare h (by decide))

theorem keyPart_bare (h : IsBareName name) {c : Char} (hc : isBare c = false) (t : List Char) :
    keyPart (name.toList ++ c :: t) = some (name, c :: t) := by
  have htake : (name.toList ++ c :: t).takeWhile isBare = name.toList := by
    rw [List.takeWhile_append_of_pos h.2, List.takeWhile_cons_of_neg (by simp [hc]),
      List.append_nil]
  have hdrop : (name.toList ++ c :: t).dropWhile isBare = c :: t := by
    rw [List.dropWhile_append_of_pos h.2, List.dropWhile_cons_of_neg (by simp [hc])]
  obtain ⟨d, ds, hchars, hd⟩ := h.exists_eq_cons
  rw [hchars, List.cons_append] at htake hdrop ⊢
  unfold keyPart
  split
  · rename_i heq
    exact absurd (List.cons.inj heq).1 (ne_of_isBare hd (by decide))
  · rename_i heq
    exact absurd (List.cons.inj heq).1 (ne_of_isBare hd (by decide))
  · rw [htake, hdrop]
    show some (String.ofList (d :: ds), c :: t) = _
    rw [← hchars, String.ofList_toList]

/-- A bare name is a key of one part. -/
theorem key_bare (h : IsBareName name) {c d : Char} {t u : List Char} (hc : isBare c = false)
    (hskip : skipBlanks (c :: t) = d :: u) (hd : d ≠ '.') :
    key (name.toList ++ c :: t) = some (⟨[], name⟩, d :: u) := by
  have hblanks : skipBlanks (name.toList ++ c :: t) = name.toList ++ c :: t := by
    obtain ⟨e, es, hchars, he⟩ := h.exists_eq_cons
    rw [hchars, List.cons_append, skipBlanks,
      List.dropWhile_cons_of_neg (by simp [isBlank_of_isBare he])]
  have hparts (budget : Nat) :
      keyParts (budget + 1) (name.toList ++ c :: t) = some ([name], d :: u) := by
    simp only [keyParts, hblanks, keyPart_bare h hc, hskip]
    split
    · rename_i heq
      exact absurd (List.cons.inj heq).1 hd
    · rfl
  rw [key, hparts]
  rfl

end

/-! ### Statements -/

/-- The first character of a value is no blank. -/
theorem skipBlanks_plain (v : Plain) (rest : List Char) :
    skipBlanks ((plain v).toList ++ rest) = (plain v).toList ++ rest := by
  have hhead : ∃ c t, (plain v).toList = c :: t ∧ isBlank c = false := by
    cases v with
    | string s =>
      obtain ⟨c, t, heq, rfl | rfl⟩ := exists_string_eq_cons s
      · exact ⟨_, t, heq, by decide⟩
      · exact ⟨_, t, heq, by decide⟩
    | boolean b =>
      cases b with
      | false => exact ⟨'f', ['a', 'l', 's', 'e'], by decide, by decide⟩
      | true => exact ⟨'t', ['r', 'u', 'e'], by decide, by decide⟩
    | strings ss =>
      rcases toList_strings ss with ⟨heq, -⟩ | ⟨s, heq, -⟩ | heq
      · exact ⟨_, _, heq, by decide⟩
      · exact ⟨_, _, heq, by decide⟩
      · exact ⟨_, _, heq, by decide⟩
  obtain ⟨c, t, heq, hblank⟩ := hhead
  rw [heq, List.cons_append, skipBlanks, List.dropWhile_cons_of_neg (by simp [hblank])]

section

variable {name : String} (h : IsBareName name) (rest : List Char)

include h

theorem statement_header :
    statement ('[' :: (name.toList ++ ']' :: '\n' :: rest)) = some (.header ⟨[], name⟩, rest) := by
  have hkey : key (name.toList ++ ']' :: '\n' :: rest) = some (⟨[], name⟩, ']' :: '\n' :: rest) :=
    key_bare h (by decide) rfl (by decide)
  obtain ⟨c, cs, hchars, hc⟩ := h.exists_eq_cons
  rw [hchars, List.cons_append] at hkey ⊢
  unfold statement
  split
  · rename_i heq
    exact absurd (List.cons.inj (List.cons.inj heq).2).1 (ne_of_isBare hc (by decide))
  · rename_i heq
    rw [← (List.cons.inj heq).2, hkey]
    rfl
  · rename_i hne
    exact absurd rfl (hne _)

theorem statement_assignment (v : Plain) :
    statement (name.toList ++ ' ' :: '=' :: ' ' :: ((plain v).toList ++ '\n' :: rest)) =
      some (.assignment ⟨[], name⟩ v.toToml, rest) := by
  have hkey : key (name.toList ++ ' ' :: '=' :: ' ' :: ((plain v).toList ++ '\n' :: rest)) =
      some (⟨[], name⟩, '=' :: ' ' :: ((plain v).toList ++ '\n' :: rest)) :=
    key_bare h (by decide) rfl (by decide)
  have hvalue : value (2 * (' ' :: ((plain v).toList ++ '\n' :: rest)).length + 2) (78 + 1)
      ((plain v).toList ++ '\n' :: rest) = some (v.toToml, '\n' :: rest) := by
    refine value_plain v rest ?_
    simp only [List.length_cons, List.length_append]
    omega
  obtain ⟨c, cs, hchars, hc⟩ := h.exists_eq_cons
  rw [hchars, List.cons_append] at hkey ⊢
  unfold statement
  split
  · rename_i heq
    exact absurd (List.cons.inj heq).1 (ne_of_isBare hc (by decide))
  · rename_i heq
    exact absurd (List.cons.inj heq).1 (ne_of_isBare hc (by decide))
  · have hblank (t : List Char) : skipBlanks (' ' :: t) = skipBlanks t := rfl
    simp only [hkey, hblank, skipBlanks_plain, maxNesting, hvalue, Option.bind_eq_bind,
      Option.bind_some, Option.pure_def]
    rfl

end

/-- `Lists text ss`: a text consists of statements and what may stand between and after them. -/
inductive Lists : List Char → List Statement → Prop
  /-- Nothing is left but blanks, line breaks and comments. -/
  | done {text : List Char} (h : skipLayout false text = []) : Lists text []
  /-- A statement comes first. -/
  | statement {text start rest : List Char} {s : Statement} {ss : List Statement}
    (hlayout : skipLayout false text = start) (hstart : start ≠ [])
    (hs : statement start = some (s, rest)) (hlt : rest.length < text.length)
    (hlater : Lists rest ss) : Lists text (s :: ss)

namespace Lists

variable {text : List Char} {ss : List Statement}

/-- A budget beyond the length of the text is enough, as every statement takes a character. -/
theorem statements_eq (h : Lists text ss) {budget : Nat} (hbudget : text.length < budget) :
    statements budget text = some ss := by
  induction h generalizing budget with
  | done h =>
    obtain ⟨budget, rfl⟩ : ∃ b, budget = b + 1 := ⟨budget - 1, by omega⟩
    simp only [statements, h]
  | statement hlayout hstart hs hlt _ ih =>
    obtain ⟨budget, rfl⟩ : ∃ b, budget = b + 1 := ⟨budget - 1, by omega⟩
    have hlater := @ih budget (by omega)
    rw [statements, hlayout]
    split
    · exact absurd rfl hstart
    · rw [hs]
      show (statements budget _).map _ = _
      rw [hlater, Option.map_some]

/-- Empty lines do not count. -/
theorem feed (h : Lists text ss) : Lists ('\n' :: text) ss := by
  cases h with
  | done h => exact .done h
  | statement hlayout hstart hs hlt hlater =>
    exact .statement hlayout hstart hs (Nat.lt_succ_of_lt hlt) hlater

end Lists

/-! ### Sections -/

namespace Section

/-- The names in a section can stand without quotes and are told apart. -/
structure IsWritable (s : Section) : Prop where
  /-- The name in the header. -/
  name : IsBareName s.name
  /-- The names of the keys. -/
  names : ∀ e ∈ s.entries, IsBareName e.1
  /-- No key is set twice. -/
  nodup : (s.entries.map Prod.fst).Nodup

/-- It is enough that the keys are among names that can stand without quotes and are told apart. -/
theorem isWritable_of_sublist {name : String} {entries : List (String × Plain)}
    {names : List String} (hbare : ∀ n ∈ name :: names, IsBareName n) (hnodup : names.Nodup)
    (hsub : (entries.map Prod.fst).Sublist names) : IsWritable ⟨name, entries⟩ where
  name := hbare name List.mem_cons_self
  names e he := hbare e.1 (List.mem_cons_of_mem _ (hsub.subset (List.mem_map_of_mem he)))
  nodup := hnodup.sublist hsub

/-- The statement that sets a key. -/
def assignment (e : String × Plain) : Statement := .assignment ⟨[], e.1⟩ e.2.toToml

/-- The statements of a section. -/
def statements (s : Section) : List Statement :=
  .header ⟨[], s.name⟩ :: s.entries.map assignment

/-- The line of a key. -/
def entryLine (e : String × Plain) : List Char :=
  e.1.toList ++ ' ' :: '=' :: ' ' :: ((plain e.2).toList ++ ['\n'])

theorem toList_block (s : Section) :
    (block s).toList = '[' :: (s.name.toList ++ ']' :: '\n' :: s.entries.flatMap entryLine) := by
  have hline (e : String × Plain) : (e.1 ++ " = " ++ plain e.2 ++ "\n").toList = entryLine e := by
    simp [entryLine]
  simp [block, List.flatMap_map, hline]

end Section

open Section

/-- The lines of keys are statements that set the keys. -/
theorem lists_entries {es : List (String × Plain)} (hnames : ∀ e ∈ es, IsBareName e.1)
    {rest : List Char} {ss : List Statement} (h : Lists rest ss) :
    Lists (es.flatMap entryLine ++ rest) (es.map assignment ++ ss) := by
  induction es with
  | nil => exact h
  | cons e es ih =>
    have hname := hnames e List.mem_cons_self
    have hlater := ih fun e' he' => hnames e' (List.mem_cons_of_mem _ he')
    have htext : (e :: es).flatMap entryLine ++ rest = e.1.toList ++ ' ' :: '=' :: ' ' ::
        ((plain e.2).toList ++ '\n' :: (es.flatMap entryLine ++ rest)) := by
      simp [entryLine]
    have hs := statement_assignment hname (es.flatMap entryLine ++ rest) e.2
    obtain ⟨c, cs, hchars, hc⟩ := hname.exists_eq_cons
    rw [htext, List.map_cons, List.cons_append]
    refine .statement ?_ ?_ hs ?_ hlater
    · rw [hchars]
      exact skipLayout_of_isBare hc _
    · rw [hchars]
      exact List.cons_ne_nil c _
    · simp only [List.length_append, List.length_cons]
      omega

/-- The text of a section is its header and the statements under it. -/
theorem lists_block {s : Section} (hs : s.IsWritable) {rest : List Char} {ss : List Statement}
    (h : Lists rest ss) : Lists ((block s).toList ++ rest) (s.statements ++ ss) := by
  have hlater := lists_entries hs.names h
  have htext : (block s).toList ++ rest = '[' :: (s.name.toList ++ ']' :: '\n' ::
      (s.entries.flatMap entryLine ++ rest)) := by
    simp [toList_block]
  rw [htext, Section.statements, List.cons_append]
  refine .statement rfl (List.cons_ne_nil _ _) (statement_header hs.name _) ?_ hlater
  simp only [List.length_append, List.length_cons]
  omega

/-- The text of a document is the statements of its sections. -/
theorem lists_render {sections : List Section} (h : ∀ s ∈ sections, s.IsWritable) :
    Lists (render sections).toList (sections.flatMap Section.statements) := by
  have hfeed : "\n".toList = ['\n'] := by decide
  rw [render, String.toList_intercalate, hfeed, List.map_map]
  induction sections with
  | nil => exact .done rfl
  | cons s sections ih =>
    have hs := h s List.mem_cons_self
    cases sections with
    | nil =>
      have hblock : Lists ((block s).toList ++ []) (s.statements ++ []) :=
        lists_block hs (.done rfl)
      simpa using hblock
    | cons s' sections =>
      have hlater := ih fun u hu => h u (List.mem_cons_of_mem _ hu)
      rw [List.map_cons, List.map_cons, List.intercalate_cons_cons, List.append_assoc,
        List.flatMap_cons]
      exact lists_block hs hlater.feed

end EntityTypings.Toml
