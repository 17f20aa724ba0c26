import EntityTypings.Toml.Strings
import EntityTypings.Toml.Writer
import Mathlib.Tactic.SplitIfs

/-!
# Texts between quotes

A text is written in one of four styles, and whatever it contains it is read back from each of
them (`string?_styled`), if it is followed by something that is no quote.

`Closes` says without a budget that pieces and a closing mark stand for a text. In one line, each
character is a piece (`closes_flatMap`). Between triple marks quotes stand for themselves, up to
two together, and only what follows them decides whether they are a piece of their own or belong
to the closing mark; `Spells` therefore counts the quotes that come before a text, and both styles
with triple marks write what it allows (`spells_escapeLines`, `spells_self`).
-/

namespace EntityTypings.Toml

open Reader Writer

/-! ### Pieces up to a closing mark -/

/-- `Closes closing piece text cs rest`: pieces and a closing mark stand at the start of `text` for
the characters `cs`, and `rest` follows them. -/
inductive Closes (closing piece : Piece) : List Char → List Char → List Char → Prop
  /-- The closing mark comes at once. -/
  | mark {text cs rest : List Char} (h : closing text = some (cs, rest)) :
    Closes closing piece text cs rest
  /-- A piece comes first. -/
  | piece {text ds later cs rest : List Char} (hopen : closing text = none)
    (hpiece : piece text = some (ds, later)) (hlt : later.length < text.length)
    (hlater : Closes closing piece later cs rest) : Closes closing piece text (ds ++ cs) rest

/-- A budget beyond the length of the text is enough, as every piece takes a character. -/
theorem Closes.pieces_eq {closing piece : Piece} {text cs rest : List Char}
    (h : Closes closing piece text cs rest) {budget : Nat} (hbudget : text.length < budget) :
    pieces closing piece budget text = some (cs, rest) := by
  induction h generalizing budget with
  | mark h =>
    cases budget with
    | zero => omega
    | succ budget => simp only [pieces, h]
  | piece hopen hpiece hlt _ ih =>
    cases budget with
    | zero => omega
    | succ budget =>
      have hlater := @ih budget (by omega)
      simp only [pieces, hopen, hpiece, hlater, Option.map_some]

/-- A text all of whose characters are pieces is closed by the mark that follows. -/
theorem closes_flatMap {closing piece : Piece} {write : Char → List Char} {cs : List Char}
    (hopen : ∀ c ∈ cs, ∀ t, closing (write c ++ t) = none)
    (hpiece : ∀ c ∈ cs, ∀ t, piece (write c ++ t) = some ([c], t))
    (hne : ∀ c ∈ cs, write c ≠ []) {mark rest : List Char}
    (hmark : closing mark = some ([], rest)) :
    Closes closing piece (cs.flatMap write ++ mark) cs rest := by
  induction cs with
  | nil => exact .mark hmark
  | cons c cs ih =>
    have hlater := ih (fun d hd => hopen d (List.mem_cons_of_mem _ hd))
      (fun d hd => hpiece d (List.mem_cons_of_mem _ hd))
      (fun d hd => hne d (List.mem_cons_of_mem _ hd))
    have hpos := List.length_pos_iff.2 (hne c List.mem_cons_self)
    rw [List.flatMap_cons, List.append_assoc]
    refine .piece (hopen c List.mem_cons_self _) (hpiece c List.mem_cons_self _) ?_ hlater
    simp only [List.length_append]
    omega

/-! ### Characters -/

/-- A character that is neither a control character nor a line feed can stand for itself. -/
theorem isPlain_of_not_isControl {c : Char} (h : isControl c = false) (hne : c ≠ '\n') :
    isPlain c = true := by
  unfold isControl at h
  unfold isPlain
  simp only [Bool.or_eq_false_iff, Bool.and_eq_false_iff, decide_eq_false_iff_not, ne_eq,
    decide_not, Bool.not_eq_false', decide_eq_true_eq, Nat.not_lt] at h
  simp only [Bool.or_eq_true, Bool.and_eq_true, decide_eq_true_eq, ne_eq, decide_not,
    Bool.not_eq_true', decide_eq_false_iff_not]
  obtain ⟨h, hdel⟩ := h
  rcases h with (h | h) | h
  · exact .inr ⟨h, hdel⟩
  · exact .inl h
  · exact absurd h hne

/-- The digits of an escaped character are read back. -/
theorem codePiece_hexPair {c : Char} (h : c.toNat < 128) (t : List Char) :
    codePiece 4 (['0', '0'] ++ hexPair c.toNat ++ t) = some ([c], t) := by
  have hdigits : ∀ n < 128, Json.Reader.hexNumber? (['0', '0'] ++ hexPair n) = some n ∧
      n.isValidChar := by decide
  obtain ⟨hnumber, hvalid⟩ := hdigits _ h
  have htake : (['0', '0'] ++ hexPair c.toNat ++ t).take 4 = ['0', '0'] ++ hexPair c.toNat := rfl
  have hdrop : (['0', '0'] ++ hexPair c.toNat ++ t).drop 4 = t := rfl
  have hlength : (['0', '0'] ++ hexPair c.toNat).length = 4 := rfl
  rw [codePiece, htake, hdrop, if_pos hlength, hnumber]
  simp [hvalid, Char.ofNat_toNat]

/-- A character is written as an escape that no line break can be taken for, or it is plain and
neither a quote nor a backslash, and stands for itself. -/
theorem escape_cases (c : Char) :
    (∃ letter digits, escape c = '\\' :: letter :: digits ∧
      (isBlank letter = false ∧ letter ≠ '\n' ∧ letter ≠ '\r') ∧
      ∀ t, escapePiece (letter :: digits ++ t) = some ([c], t)) ∨
    (escape c = [c] ∧ isPlain c = true ∧ c ≠ '"' ∧ c ≠ '\\') := by
  unfold escape
  split
  case h_8 hquote hbackslash _ _ hfeed _ _ =>
    by_cases hcode : c.toNat < 0x20 ∨ c.toNat = 0x7F
    · rw [if_pos hcode]
      refine .inl ⟨'u', ['0', '0'] ++ hexPair c.toNat, rfl, by decide, fun t => ?_⟩
      exact codePiece_hexPair (by omega) t
    · rw [if_neg hcode]
      have hcontrol : isControl c = false := by simp [isControl]; omega
      exact .inr ⟨rfl, isPlain_of_not_isControl hcontrol hfeed, hquote, hbackslash⟩
  all_goals exact .inl ⟨_, [], rfl, by decide, fun t => rfl⟩

/-! ### Pieces of one character -/

section

variable {c quote : Char}

theorem plainPiece_of_isPlain (h : isPlain c = true) (hquote : c ≠ quote) (t : List Char) :
    plainPiece quote (c :: t) = some ([c], t) := by
  rw [plainPiece, if_pos (by simpa [h] using hquote)]

/-- A plain character ends no line. -/
theorem lineBreak?_of_isPlain (h : isPlain c = true) (t : List Char) :
    lineBreak? (c :: t) = none := by
  unfold lineBreak?
  split
  · rename_i heq
    cases heq
    exact absurd h (by decide)
  · rename_i heq
    cases heq
    exact absurd h (by decide)
  · rfl

theorem linesPiece_of_isPlain (h : isPlain c = true) (hquote : c ≠ quote) (t : List Char) :
    linesPiece quote (c :: t) = some ([c], t) := by
  simp only [linesPiece, lineBreak?_of_isPlain h, plainPiece_of_isPlain h hquote]

/-- What a line break stands for does not depend on how the line ends. -/
theorem linesPiece_of_lineBreak? {t rest : List Char} (h : lineBreak? t = some rest) :
    linesPiece quote t = some (['\n'], rest) := by
  simp only [linesPiece, h]

theorem basicLinesPiece_of_ne (h : c ≠ '\\') (t : List Char) :
    basicLinesPiece (c :: t) = linesPiece '"' (c :: t) := by
  unfold basicLinesPiece
  split
  · rename_i heq
    exact absurd (List.cons.inj heq).1 h
  · rfl

theorem basicLinesPiece_of_lineBreak? {t rest : List Char} (h : lineBreak? t = some rest) :
    basicLinesPiece t = some (['\n'], rest) := by
  cases t with
  | nil => cases h
  | cons c t =>
    have hne : c ≠ '\\' := by
      rintro rfl
      cases h
    rw [basicLinesPiece_of_ne hne, linesPiece_of_lineBreak? h]

/-- In a text that spans lines, a backslash before anything but the end of a line starts an
escape. -/
theorem basicLinesPiece_backslash (hblank : isBlank c = false) (hfeed : c ≠ '\n')
    (hreturn : c ≠ '\r') (t : List Char) :
    basicLinesPiece ('\\' :: c :: t) = escapePiece (c :: t) := by
  have hbreak : lineBreak? ((c :: t).dropWhile isBlank) = none := by
    rw [List.dropWhile_cons_of_neg (by simp [hblank])]
    unfold lineBreak?
    split
    · rename_i heq
      exact absurd (List.cons.inj heq).1 hfeed
    · rename_i heq
      exact absurd (List.cons.inj heq).1 hreturn
    · rfl
  simp only [basicLinesPiece, hbreak]

end

theorem basicPiece_escape (c : Char) (t : List Char) :
    basicPiece (escape c ++ t) = some ([c], t) := by
  obtain ⟨letter, digits, heq, -, hescape⟩ | ⟨heq, hplain, hquote, hbackslash⟩ := escape_cases c
  · rw [heq]
    exact hescape t
  · rw [heq, List.singleton_append]
    unfold basicPiece
    split
    · rename_i hcons
      exact absurd (List.cons.inj hcons).1 hbackslash
    · exact plainPiece_of_isPlain hplain hquote t

theorem basicLinesPiece_escape (c : Char) (t : List Char) :
    basicLinesPiece (escape c ++ t) = some ([c], t) := by
  obtain ⟨letter, digits, heq, ⟨hblank, hfeed, hreturn⟩, hescape⟩ |
    ⟨heq, hplain, hquote, hbackslash⟩ := escape_cases c
  · rw [heq, List.cons_append, List.cons_append, basicLinesPiece_backslash hblank hfeed hreturn]
    exact hescape t
  · rw [heq, List.singleton_append, basicLinesPiece_of_ne hbackslash,
      linesPiece_of_isPlain hplain hquote]

/-- What is written for a character does not start with a quote. -/
theorem exists_escape_eq_cons (c : Char) : ∃ d e, escape c = d :: e ∧ d ≠ '"' := by
  obtain ⟨letter, digits, heq, -, -⟩ | ⟨heq, -, hquote, -⟩ := escape_cases c
  · exact ⟨'\\', letter :: digits, heq, by decide⟩
  · exact ⟨c, [], heq, hquote⟩

/-! ### Quotes between triple marks -/

section

variable {quote next : Char}

theorem quoteRun_replicate (n : Nat) (h : next ≠ quote) (t : List Char) :
    quoteRun quote (List.replicate n quote ++ next :: t) = n := by
  induction n with
  | zero => simp [quoteRun, h]
  | succ n ih =>
    unfold quoteRun at ih ⊢
    rw [List.replicate_succ, List.cons_append, List.takeWhile_cons_of_pos (by simp),
      List.length_cons, ih]

theorem drop_replicate_append (n : Nat) (t : List Char) :
    (List.replicate n quote ++ t).drop n = t :=
  List.drop_left' List.length_replicate

/-- Of three to five quotes the last three are the closing mark. -/
theorem closingRun_replicate {n : Nat} (hn : n ≤ 2) (h : next ≠ quote) (t : List Char) :
    closingRun quote (List.replicate (n + 3) quote ++ next :: t) =
      some (List.replicate n quote, next :: t) := by
  simp only [closingRun, quoteRun_replicate _ h, drop_replicate_append, Nat.add_sub_cancel]
  rw [if_pos (by omega)]

/-- Up to two quotes are no closing mark. -/
theorem closingRun_eq_none {n : Nat} (hn : n ≤ 2) (h : next ≠ quote) (t : List Char) :
    closingRun quote (List.replicate n quote ++ next :: t) = none := by
  simp only [closingRun, quoteRun_replicate _ h]
  rw [if_neg (by omega)]

/-- A piece of texts between triple marks takes quotes, up to two, as they are. -/
def TakesQuotes (quote : Char) (piece : Piece) : Prop :=
  ∀ n ≤ 1, ∀ next ≠ quote, ∀ t, piece (List.replicate (n + 1) quote ++ next :: t) =
    some (List.replicate (n + 1) quote, next :: t)

theorem takesQuotes_linesPiece (hquote : isPlain quote = true) :
    TakesQuotes quote (linesPiece quote) := by
  intro n hn next hnext t
  have hrun : quotePiece quote (List.replicate (n + 1) quote ++ next :: t) =
      some (List.replicate (n + 1) quote, next :: t) := by
    simp only [quotePiece, quoteRun_replicate _ hnext, drop_replicate_append]
    rw [if_pos (by omega)]
  rw [List.replicate_succ, List.cons_append] at hrun ⊢
  have hplain (t : List Char) : plainPiece quote (quote :: t) = none := by simp [plainPiece]
  simp only [linesPiece, lineBreak?_of_isPlain hquote, hplain, hrun]

theorem takesQuotes_basicLinesPiece : TakesQuotes '"' basicLinesPiece := by
  intro n hn next hnext t
  rw [List.replicate_succ, List.cons_append, basicLinesPiece_of_ne (by decide)]
  exact takesQuotes_linesPiece (by decide) n hn next hnext t

end

/-- `Spells quote piece run cs text`: between triple marks, `text` stands for the characters `cs`
after `run` quotes, of which there are never more than two together. -/
inductive Spells (quote : Char) (piece : Piece) : (run : Nat) → List Char → List Char → Prop
  /-- At the end. -/
  | nil {run : Nat} (hrun : run ≤ 2) : Spells quote piece run [] []
  /-- A quote that stands for itself. -/
  | quote {run : Nat} {cs text : List Char} (hlater : Spells quote piece (run + 1) cs text) :
    Spells quote piece run (quote :: cs) (quote :: text)
  /-- A character that is written without a quote at its start. -/
  | other {run : Nat} {c d : Char} {cs e text : List Char} (hrun : run ≤ 2) (hd : d ≠ quote)
    (hpiece : ∀ t, piece (d :: e ++ t) = some ([c], t)) (hlater : Spells quote piece 0 cs text) :
    Spells quote piece run (c :: cs) (d :: e ++ text)

namespace Spells

variable {quote : Char} {piece : Piece} {run : Nat} {cs text : List Char}

/-- What spells a text is closed by the mark that follows, and the quotes before it belong to it. -/
theorem closes (hquotes : TakesQuotes quote piece) (h : Spells quote piece run cs text)
    {next : Char} (hnext : next ≠ quote) (rest : List Char) :
    Closes (closingRun quote) piece
      (List.replicate run quote ++ (text ++ (List.replicate 3 quote ++ next :: rest)))
      (List.replicate run quote ++ cs) (next :: rest) := by
  induction h with
  | nil hrun =>
    rw [List.nil_append, ← List.append_assoc, List.replicate_append_replicate, List.append_nil]
    exact .mark (closingRun_replicate hrun hnext rest)
  | quote _ ih =>
    rw [List.replicate_succ', List.append_assoc, List.append_assoc] at ih
    exact ih
  | @other run c d cs e text hrun hd hpiece _ ih =>
    have hfirst : Closes (closingRun quote) piece
        (d :: e ++ (text ++ (List.replicate 3 quote ++ next :: rest))) ([c] ++ cs)
        (next :: rest) := by
      refine .piece (closingRun_eq_none (Nat.zero_le 2) hd _) (hpiece _) ?_ ih
      simp only [List.cons_append, List.length_cons, List.length_append]
      omega
    rw [List.append_assoc]
    cases run with
    | zero => exact hfirst
    | succ run =>
      refine .piece (closingRun_eq_none hrun hd _) (hquotes run (by omega) d hd _) ?_ hfirst
      rw [List.length_append, List.length_replicate]
      exact Nat.lt_add_of_pos_left run.succ_pos

/-- A text without line breaks is spelt without a line break at its start. -/
theorem lineBreak?_eq_none (hquote : isPlain quote = true)
    (hbreak : ∀ t rest, lineBreak? t = some rest → piece t = some (['\n'], rest))
    (h : Spells quote piece run cs text) (hcs : '\n' ∉ cs) (rest : List Char) :
    lineBreak? (text ++ (List.replicate 3 quote ++ rest)) = none := by
  cases h with
  | nil _ => exact lineBreak?_of_isPlain hquote _
  | quote _ => exact lineBreak?_of_isPlain hquote _
  | @other _ c d cs e text _ _ hpiece _ =>
    rw [List.append_assoc]
    cases hlater : lineBreak? (d :: e ++ (text ++ (List.replicate 3 quote ++ rest))) with
    | none => rfl
    | some later =>
      -- a line break would be the piece for the first character
      have hc := (hpiece _).symm.trans (hbreak _ _ hlater)
      simp only [Option.some.injEq, Prod.mk.injEq, List.cons.injEq, and_true] at hc
      exact absurd (hc.1 ▸ List.mem_cons_self) hcs

/-- A text after an opening mark is read up to its closing mark. -/
theorem pieces_eq (hquote : isPlain quote = true) (hquotes : TakesQuotes quote piece)
    (hbreak : ∀ t rest, lineBreak? t = some rest → piece t = some (['\n'], rest))
    (h : Spells quote piece 0 cs text) {next : Char} (hnext : next ≠ quote) (rest : List Char) :
    let whole := opening cs ++ (text ++ (List.replicate 3 quote ++ next :: rest))
    pieces (closingRun quote) piece (whole.length + 1) (afterOpening whole) =
      some (cs, next :: rest) := by
  intro whole
  have hafter : afterOpening whole = text ++ (List.replicate 3 quote ++ next :: rest) := by
    by_cases hcs : '\n' ∈ cs
    · have hopening : opening cs = ['\n'] := by simp [opening, hcs]
      rw [afterOpening, show whole = ['\n'] ++ _ from congrArg (· ++ _) hopening]
      rfl
    · have hopening : opening cs = [] := by simp [opening, hcs]
      rw [afterOpening, show whole = [] ++ _ from congrArg (· ++ _) hopening, List.nil_append,
        h.lineBreak?_eq_none hquote hbreak hcs, Option.getD_none]
  rw [hafter]
  refine (h.closes hquotes hnext rest).pieces_eq ?_
  have hlength : whole.length = (opening cs).length +
      (text ++ (List.replicate 3 quote ++ next :: rest)).length := List.length_append
  rw [List.replicate_zero, List.nil_append, hlength]
  omega

end Spells

/-! ### Texts in their styles -/

/-- Every third quote of a run is escaped, so a text with escapes is spelt whatever it contains. -/
theorem spells_escapeLines (cs : List Char) {run : Nat} (hrun : run ≤ 2) :
    Spells '"' basicLinesPiece run cs (escapeLines run cs) := by
  induction cs generalizing run with
  | nil => exact .nil hrun
  | cons c cs ih =>
    rw [escapeLines]
    by_cases hc : c = '"'
    · subst hc
      rw [if_pos rfl]
      by_cases hthird : run = 2
      · rw [if_pos hthird]
        exact .other (e := ['"']) hrun (by decide) (fun t => rfl) (ih (Nat.zero_le 2))
      · rw [if_neg hthird]
        exact .quote (ih (by omega))
    · rw [if_neg hc]
      by_cases hfeed : c = '\n'
      · subst hfeed
        rw [if_pos rfl]
        exact .other (e := []) hrun (by decide) (fun t => rfl) (ih (Nat.zero_le 2))
      · rw [if_neg hfeed]
        obtain ⟨d, e, heq, hd⟩ := exists_escape_eq_cons c
        rw [heq]
        exact .other hrun hd (fun t => heq ▸ basicLinesPiece_escape c t) (ih (Nat.zero_le 2))

theorem le_longestRun (quote : Char) (run : Nat) (cs : List Char) :
    run ≤ longestRun quote run cs := by
  induction cs generalizing run with
  | nil => exact Nat.le_refl run
  | cons c cs ih =>
    rw [longestRun]
    split
    · exact Nat.le_trans (Nat.le_succ run) (ih (run + 1))
    · exact Nat.le_max_left _ _

/-- A text without control characters and long runs of apostrophes spells itself. -/
theorem spells_self {cs : List Char} {run : Nat} (hcontrol : ∀ c ∈ cs, isControl c = false)
    (hrun : longestRun '\'' run cs ≤ 2) : Spells '\'' (linesPiece '\'') run cs cs := by
  have hle := Nat.le_trans (le_longestRun '\'' run cs) hrun
  induction cs generalizing run with
  | nil => exact .nil hle
  | cons c cs ih =>
    have hlater := fun d hd => hcontrol d (List.mem_cons_of_mem c hd)
    rw [longestRun] at hrun
    by_cases hc : c = '\''
    · subst hc
      rw [if_pos rfl] at hrun
      exact .quote (ih hlater hrun (Nat.le_trans (le_longestRun _ _ _) hrun))
    · rw [if_neg hc] at hrun
      have hpiece (t : List Char) : linesPiece '\'' (c :: t) = some ([c], t) := by
        by_cases hfeed : c = '\n'
        · subst hfeed
          rfl
        · have hplain := isPlain_of_not_isControl (hcontrol c List.mem_cons_self) hfeed
          exact linesPiece_of_isPlain hplain hc t
      have hrest : longestRun '\'' 0 cs ≤ 2 := Nat.le_trans (Nat.le_max_right _ _) hrun
      exact .other (e := []) hle hc hpiece (ih hlater hrest (Nat.zero_le 2))

theorem not_mem_of_longestRun {quote : Char} {cs : List Char} (h : longestRun quote 0 cs = 0) :
    quote ∉ cs := by
  induction cs with
  | nil => exact List.not_mem_nil
  | cons c cs ih =>
    rw [longestRun] at h
    by_cases hc : c = quote
    · rw [if_pos hc] at h
      have hle := le_longestRun quote (0 + 1) cs
      omega
    · rw [if_neg hc] at h
      rw [List.mem_cons, not_or]
      exact ⟨fun heq => hc heq.symm, ih (by omega)⟩

/-- What a text has to be to be written in a style: anything where there are escapes. -/
def Writer.Style.Suits (cs : List Char) : Style → Prop
  | .basic | .basicLines => True
  | .literal => ∀ c ∈ cs, isPlain c = true ∧ c ≠ '\''
  | .literalLines => (∀ c ∈ cs, isControl c = false) ∧ longestRun '\'' 0 cs ≤ 2

/-- The style that is chosen suits the text. -/
theorem suits_styleOf (cs : List Char) : (styleOf cs).Suits cs := by
  have hcontrol (h : (!cs.any isControl) = true) : ∀ c ∈ cs, isControl c = false := by
    simpa using h
  unfold styleOf
  simp only [Bool.and_eq_true, decide_eq_true_eq]
  split_ifs with _ hliteral _ hlines
  · trivial
  · obtain ⟨⟨hnone, hfeed⟩, hsingle⟩ := hliteral
    intro c hc
    have hne : c ≠ '\n' := by
      rintro rfl
      simp [hc] at hfeed
    refine ⟨isPlain_of_not_isControl (hcontrol hnone c hc) hne, ?_⟩
    rintro rfl
    exact not_mem_of_longestRun hsingle hc
  · trivial
  · exact ⟨hcontrol hlines.1, hlines.2⟩
  · trivial
  · trivial

section

variable {next : Char} (cs rest : List Char)

/-- A quote that two others do not follow opens a string in one line. -/
theorem string?_quote {text : List Char} (h : ∀ t, text ≠ '"' :: '"' :: t) :
    string? ('"' :: text) = basicString text := by
  unfold string?
  split
  · rename_i heq
    exact absurd (List.cons.inj heq).2 (h _)
  · rename_i heq
    rw [(List.cons.inj heq).2]
  · rename_i heq
    cases heq
  · rename_i heq
    cases heq
  · rename_i hquote _ _
    exact absurd rfl (hquote _)

theorem string?_apostrophe {text : List Char} (h : ∀ t, text ≠ '\'' :: '\'' :: t) :
    string? ('\'' :: text) = literalString text := by
  unfold string?
  split
  · rename_i heq
    cases heq
  · rename_i heq
    cases heq
  · rename_i heq
    exact absurd (List.cons.inj heq).2 (h _)
  · rename_i heq
    rw [(List.cons.inj heq).2]
  · rename_i hquote
    exact absurd rfl (hquote _)

theorem string?_basic (hnext : next ≠ '"') :
    string? (styled cs .basic ++ next :: rest) = some (cs, next :: rest) := by
  have hopen (c : Char) (t : List Char) : closingQuote '"' (escape c ++ t) = none := by
    obtain ⟨d, e, heq, hd⟩ := exists_escape_eq_cons c
    rw [heq, List.cons_append, closingQuote, if_neg hd]
  have hcloses : Closes (closingQuote '"') basicPiece
      (cs.flatMap escape ++ '"' :: next :: rest) cs (next :: rest) := by
    refine closes_flatMap (fun c _ => hopen c) (fun c _ => basicPiece_escape c) (fun c _ => ?_) rfl
    obtain ⟨d, e, heq, -⟩ := exists_escape_eq_cons c
    exact heq ▸ List.cons_ne_nil d e
  have htext : styled cs .basic ++ next :: rest =
      '"' :: (cs.flatMap escape ++ '"' :: next :: rest) := by simp [styled]
  have hhead (t : List Char) : cs.flatMap escape ++ '"' :: next :: rest ≠ '"' :: '"' :: t := by
    cases cs with
    | nil =>
      intro h
      exact hnext (List.cons.inj (List.cons.inj h).2).1
    | cons c cs =>
      obtain ⟨d, e, heq, hd⟩ := exists_escape_eq_cons c
      rw [List.flatMap_cons, heq]
      intro h
      exact hd (List.cons.inj h).1
  rw [htext, string?_quote hhead]
  exact hcloses.pieces_eq (Nat.lt_succ_self _)

theorem string?_literal (hcs : Style.literal.Suits cs) (hnext : next ≠ '\'') :
    string? (styled cs .literal ++ next :: rest) = some (cs, next :: rest) := by
  have hcloses : Closes (closingQuote '\'') (plainPiece '\'')
      (cs.flatMap (fun c => [c]) ++ '\'' :: next :: rest) cs (next :: rest) := by
    refine closes_flatMap (fun c hc t => ?_) (fun c hc t => ?_)
      (fun c _ => List.cons_ne_nil c []) rfl
    · rw [List.singleton_append, closingQuote, if_neg (hcs c hc).2]
    · exact plainPiece_of_isPlain (hcs c hc).1 (hcs c hc).2 t
  have htext : styled cs .literal ++ next :: rest = '\'' :: (cs ++ '\'' :: next :: rest) := by
    simp [styled]
  have hhead (t : List Char) : cs ++ '\'' :: next :: rest ≠ '\'' :: '\'' :: t := by
    cases cs with
    | nil =>
      intro h
      exact hnext (List.cons.inj (List.cons.inj h).2).1
    | cons c cs =>
      intro h
      exact (hcs c List.mem_cons_self).2 (List.cons.inj h).1
  rw [List.flatMap_singleton'] at hcloses
  rw [htext, string?_apostrophe hhead]
  exact hcloses.pieces_eq (Nat.lt_succ_self _)

theorem string?_basicLines (hnext : next ≠ '"') :
    string? (styled cs .basicLines ++ next :: rest) = some (cs, next :: rest) := by
  have hpieces := (spells_escapeLines cs (Nat.zero_le 2)).pieces_eq (by decide)
    takesQuotes_basicLinesPiece (fun _ _ => basicLinesPiece_of_lineBreak?) hnext rest
  have htext : styled cs .basicLines ++ next :: rest = '"' :: '"' :: '"' ::
      (opening cs ++ (escapeLines 0 cs ++ (List.replicate 3 '"' ++ next :: rest))) := by
    simp [styled, List.replicate]
  rw [htext]
  exact hpieces

theorem string?_literalLines (hcs : Style.literalLines.Suits cs) (hnext : next ≠ '\'') :
    string? (styled cs .literalLines ++ next :: rest) = some (cs, next :: rest) := by
  have hpieces := (spells_self hcs.1 hcs.2).pieces_eq (by decide)
    (takesQuotes_linesPiece (by decide)) (fun _ _ => linesPiece_of_lineBreak?) hnext rest
  have htext : styled cs .literalLines ++ next :: rest = '\'' :: '\'' :: '\'' ::
      (opening cs ++ (cs ++ (List.replicate 3 '\'' ++ next :: rest))) := by
    simp [styled, List.replicate]
  rw [htext]
  exact hpieces

/-- **A text is read back from the style that is chosen for it.** -/
theorem string?_styled (hquote : next ≠ '"') (hapostrophe : next ≠ '\'') :
    string? (styled cs (styleOf cs) ++ next :: rest) = some (cs, next :: rest) := by
  have hsuits := suits_styleOf cs
  cases hstyle : styleOf cs with
  | basic => exact string?_basic cs rest hquote
  | literal => exact string?_literal cs rest (hstyle ▸ hsuits) hapostrophe
  | basicLines => exact string?_basicLines cs rest hquote
  | literalLines => exact string?_literalLines cs rest (hstyle ▸ hsuits) hapostrophe

end

end EntityTypings.Toml
