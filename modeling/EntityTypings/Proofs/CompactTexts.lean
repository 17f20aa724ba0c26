import EntityTypings.Json.Reader
import EntityTypings.Proofs.DecimalTexts

/-!
# Compact texts of values

The compact text of a JSON value says which value is meant and where it ends, whatever stands behind
it, as long as that could not be part of a number (`compact_append_inj`). The first character says
of which form a value is (`Form`); a string ends at the first quote that is not escaped, a numeral
where its characters end, and a list or an object where its elements do not go on with a comma.

Decimals are told by their texts only if they are reduced, so the same is asked of all decimals in a
value (`IsReduced`). That no text has control characters (`hasNoControls_compact`) holds of all values.
-/

namespace EntityTypings.Json

open Reader

/-! ### Strings -/

theorem hexNumber?_hexPair : ∀ n < 0x20, hexNumber? ('0' :: '0' :: hexPair n) = some n := by
  decide

/-- A character is read back from the text that stands for it. -/
theorem stringBody_escape (read : List Char) (c : Char) (rest : List Char) :
    stringBody read (escape c ++ rest) = stringBody (c :: read) rest := by
  unfold escape
  split
  case h_8 hquote hbackslash _ _ _ _ _ =>
    split
    · rename_i hlow
      have hhex := hexNumber?_hexPair c.toNat hlow
      have hfirst : isHighSurrogate c.toNat = false := by
        simp only [isHighSurrogate, Bool.and_eq_false_iff, decide_eq_false_iff_not]
        omega
      have hsecond : isLowSurrogate c.toNat = false := by
        simp only [isLowSurrogate, Bool.and_eq_false_iff, decide_eq_false_iff_not]
        omega
      rw [hexPair] at hhex
      simp [stringBody, hexPair, hhex, hfirst, hsecond]
    · rename_i hlow
      rw [List.singleton_append, stringBody, if_neg hlow]
      · exact hquote
      · exact fun _ _ _ _ _ heq => absurd heq hbackslash
      · exact fun _ _ heq => absurd heq hbackslash
  all_goals simp [stringBody, simpleEscape?]

/-- **A text is read back from its literal, and what follows the literal is left.** -/
theorem stringBody_quoted (s : String) (rest : List Char) :
    ∃ body, (quoted s).toList = '"' :: body ∧ stringBody [] (body ++ rest) = some (s, rest) := by
  have hread (read cs : List Char) : stringBody read (cs.flatMap escape ++ '"' :: rest) =
      some (String.ofList (read.reverse ++ cs), rest) := by
    induction cs generalizing read with
    | nil => simp [stringBody]
    | cons c cs ih =>
      rw [List.flatMap_cons, List.append_assoc, stringBody_escape, ih, List.reverse_cons,
        List.append_assoc, List.singleton_append]
  refine ⟨s.toList.flatMap escape ++ ['"'], by simp [quoted], ?_⟩
  rw [List.append_assoc, List.singleton_append, hread, List.reverse_nil, List.nil_append,
    String.ofList_toList]

theorem quoted_append_inj {s t : String} {q r : List Char}
    (h : (quoted s).toList ++ q = (quoted t).toList ++ r) : s = t ∧ q = r := by
  obtain ⟨body, hs, hread⟩ := stringBody_quoted s q
  obtain ⟨other, ht, hreadother⟩ := stringBody_quoted t r
  rw [hs, ht] at h
  have hrest : body ++ q = other ++ r := (List.cons.inj h).2
  rw [hrest, hreadother] at hread
  obtain ⟨rfl, rfl⟩ := Prod.mk.inj (Option.some.inj hread)
  exact ⟨rfl, rfl⟩

theorem quoted_inj {s t : String} (h : quoted s = quoted t) : s = t :=
  (quoted_append_inj (q := []) (r := []) (by rw [h])).1

/-! ### Reduced values -/

mutual

/-- The decimals in a value. -/
def reals : Json → List Decimal
  | real d => [d]
  | list items => realsOfItems items
  | object fields => realsOfFields fields
  | null | bool _ | integer _ | string _ => []

/-- The decimals in the elements of a list. -/
def realsOfItems : List Json → List Decimal
  | [] => []
  | j :: rest => j.reals ++ realsOfItems rest

/-- The decimals in the fields of an object. -/
def realsOfFields : List (String × Json) → List Decimal
  | [] => []
  | (_, j) :: rest => j.reals ++ realsOfFields rest

end

/-- All decimals in the value are reduced. -/
def IsReduced (j : Json) : Prop := ∀ d ∈ j.reals, d.IsReduced

instance (j : Json) : Decidable j.IsReduced := List.decidableBAll _ j.reals

/-! ### Forms -/

/-- The forms that the text of a value can have. -/
inductive Form where
  /-- The value `null`. -/
  | null
  /-- A truth value. -/
  | bool (b : Bool)
  /-- A number. -/
  | number
  /-- A text. -/
  | string
  /-- A list. -/
  | list
  /-- An object. -/
  | object

/-- The form of a value. -/
def form : Json → Form
  | null => .null
  | bool b => .bool b
  | integer _ | real _ => .number
  | string _ => .string
  | list _ => .list
  | object _ => .object

/-- The form of a value that starts with the character. -/
def Form.ofChar (c : Char) : Option Form :=
  match c with
  | 'n' => some null
  | 't' => some (bool true)
  | 'f' => some (bool false)
  | '"' => some string
  | '[' => some list
  | '\x7b' => some object
  | c => if c = '-' ∨ c.isDigit = true then some number else none

/-- The first character of a value says of which form it is. -/
theorem exists_compact_eq_cons (j : Json) :
    ∃ c cs, j.compact.toList = c :: cs ∧ Form.ofChar c = some j.form := by
  have hnumber (m : Numeral) :
      ∃ c cs, m.chars = c :: cs ∧ Form.ofChar c = some .number := by
    obtain ⟨c, cs, hcs, hc⟩ := m.exists_chars_eq_cons
    refine ⟨c, cs, hcs, ?_⟩
    unfold Form.ofChar
    split
    case h_7 => exact if_pos hc
    all_goals exact absurd hc (by decide)
  cases j with
  | null => exact ⟨_, _, rfl, rfl⟩
  | bool b => cases b <;> exact ⟨_, _, rfl, rfl⟩
  | integer n =>
    obtain ⟨m, hm, -⟩ := exists_numeral_integer n
    rw [compact, hm]
    exact hnumber m
  | real d =>
    obtain ⟨m, hm, -⟩ := d.exists_numeral_realText
    rw [compact, hm]
    exact hnumber m
  | string s => exact ⟨'"', _, by simp [compact, quoted]; rfl, rfl⟩
  | list items => exact ⟨'[', _, by simp [compact]; rfl, rfl⟩
  | object fields => exact ⟨'\x7b', _, by simp [compact]; rfl, rfl⟩

theorem form_eq_of_append_eq {a b : Json} {r s : List Char}
    (h : a.compact.toList ++ r = b.compact.toList ++ s) : a.form = b.form := by
  obtain ⟨c, cs, ha, hc⟩ := a.exists_compact_eq_cons
  obtain ⟨d, ds, hb, hd⟩ := b.exists_compact_eq_cons
  rw [ha, hb] at h
  rw [(List.cons.inj h).1, hd] at hc
  exact (Option.some.inj hc).symm

/-! ### Elements -/

/-- The elements of a list behind the first, each with a comma before it. -/
def itemsTail : List Json → List Char
  | [] => []
  | j :: rest => ',' :: j.compact.toList ++ itemsTail rest

/-- The fields of an object behind the first, each with a comma before it. -/
def fieldsTail : List (String × Json) → List Char
  | [] => []
  | (name, j) :: rest => ',' :: (quoted name).toList ++ ':' :: j.compact.toList ++ fieldsTail rest

theorem toList_compactItems (j : Json) (rest : List Json) :
    (compactItems (j :: rest)).toList = j.compact.toList ++ itemsTail rest := by
  induction rest generalizing j with
  | nil => simp [compactItems, itemsTail]
  | cons i rest ih => simp [compactItems, itemsTail, ih i]

theorem toList_compactFields (name : String) (j : Json) (rest : List (String × Json)) :
    (compactFields ((name, j) :: rest)).toList =
      (quoted name).toList ++ ':' :: j.compact.toList ++ fieldsTail rest := by
  induction rest generalizing name j with
  | nil => simp [compactFields, fieldsTail]
  | cons f rest ih => simp [compactFields, fieldsTail, ih f.1 f.2]

/-- No number goes on behind an element. -/
theorem endsNumeral_cons {c : Char} (hc : c.isDigit = false ∧ c ≠ '.' ∧ c ≠ 'e') (r : List Char) :
    EndsNumeral (c :: r) := by
  intro d hd
  obtain rfl := Option.some.inj hd
  exact hc

theorem endsNumeral_itemsTail (items : List Json) (r : List Char) :
    EndsNumeral (itemsTail items ++ ']' :: r) := by
  cases items <;> exact endsNumeral_cons (by decide) _

theorem endsNumeral_fieldsTail (fields : List (String × Json)) (r : List Char) :
    EndsNumeral (fieldsTail fields ++ '\x7d' :: r) := by
  cases fields <;> exact endsNumeral_cons (by decide) _

/-- A list is told by its elements with a comma before each of them. -/
theorem itemsTail_eq_of_compactItems {as bs : List Json} {r s : List Char}
    (h : (compactItems as).toList ++ ']' :: r = (compactItems bs).toList ++ ']' :: s) :
    itemsTail as ++ ']' :: r = itemsTail bs ++ ']' :: s := by
  have hempty {j : Json} {rest : List Json} {q t : List Char} :
      ']' :: q ≠ j.compact.toList ++ itemsTail rest ++ t := by
    obtain ⟨c, cs, hcs, hc⟩ := j.exists_compact_eq_cons
    intro heq
    rw [hcs] at heq
    rw [← (List.cons.inj heq).1] at hc
    exact Option.some_ne_none _ hc.symm
  match as, bs with
  | [], [] => exact h
  | [], b :: bs =>
    rw [toList_compactItems] at h
    exact absurd h hempty
  | a :: as, [] =>
    rw [toList_compactItems] at h
    exact absurd h.symm hempty
  | a :: as, b :: bs =>
    rw [toList_compactItems, toList_compactItems] at h
    exact congrArg (',' :: ·) h

/-- An object is told by its fields with a comma before each of them. -/
theorem fieldsTail_eq_of_compactFields {as bs : List (String × Json)} {r s : List Char}
    (h : (compactFields as).toList ++ '\x7d' :: r = (compactFields bs).toList ++ '\x7d' :: s) :
    fieldsTail as ++ '\x7d' :: r = fieldsTail bs ++ '\x7d' :: s := by
  have hempty {name : String} {q t : List Char} : '\x7d' :: q ≠ (quoted name).toList ++ t := by
    simp [quoted]
  match as, bs with
  | [], [] => exact h
  | [], (name, b) :: bs =>
    rw [toList_compactFields, List.append_assoc, List.append_assoc] at h
    exact absurd h hempty
  | (name, a) :: as, [] =>
    rw [toList_compactFields, List.append_assoc, List.append_assoc] at h
    exact absurd h.symm hempty
  | (_, a) :: as, (_, b) :: bs =>
    rw [toList_compactFields, toList_compactFields] at h
    exact congrArg (',' :: ·) h

/-! ### Values -/

mutual

/-- **A value is told by its text**, whatever follows that is no part of a number. -/
theorem compact_append_inj : ∀ {a b : Json} {r s : List Char}, a.IsReduced → b.IsReduced →
    EndsNumeral r → EndsNumeral s → a.compact.toList ++ r = b.compact.toList ++ s →
      a = b ∧ r = s := by
  intro a b r s ha hb hr hs h
  -- Only values of one form are left, of which just numbers are written in two ways.
  have hform := form_eq_of_append_eq h
  cases a with
  | null =>
    cases b with
    | null => exact ⟨rfl, List.append_cancel_left h⟩
    | _ => cases hform
  | bool _ =>
    cases b with
    | bool _ =>
      cases hform
      exact ⟨rfl, List.append_cancel_left h⟩
    | _ => cases hform
  | integer m =>
    cases b with
    | integer n =>
      rw [compact, compact] at h
      obtain ⟨rfl, hrest⟩ := integerText_append_inj hr hs h
      exact ⟨rfl, hrest⟩
    | real e =>
      rw [compact, compact] at h
      exact absurd h (integerText_append_ne_realText hr hs m e)
    | _ => cases hform
  | real d =>
    cases b with
    | integer n =>
      rw [compact, compact] at h
      exact absurd h.symm (integerText_append_ne_realText hs hr n d)
    | real e =>
      rw [compact, compact] at h
      obtain ⟨rfl, hrest⟩ := realText_append_inj hr hs (ha d (List.mem_singleton_self d))
        (hb e (List.mem_singleton_self e)) h
      exact ⟨rfl, hrest⟩
    | _ => cases hform
  | string _ =>
    cases b with
    | string _ =>
      rw [compact, compact] at h
      obtain ⟨rfl, hrest⟩ := quoted_append_inj h
      exact ⟨rfl, hrest⟩
    | _ => cases hform
  | list items =>
    cases b with
    | list others =>
      simp only [compact, String.toList_append, List.append_assoc] at h
      obtain ⟨rfl, hrest⟩ := itemsTail_append_inj ha hb
        (itemsTail_eq_of_compactItems (List.append_cancel_left h))
      exact ⟨rfl, hrest⟩
    | _ => cases hform
  | object fields =>
    cases b with
    | object others =>
      simp only [compact, String.toList_append, List.append_assoc] at h
      obtain ⟨rfl, hrest⟩ := fieldsTail_append_inj ha hb
        (fieldsTail_eq_of_compactFields (List.append_cancel_left h))
      exact ⟨rfl, hrest⟩
    | _ => cases hform

theorem itemsTail_append_inj : ∀ {as bs : List Json} {r s : List Char},
    (∀ d ∈ realsOfItems as, d.IsReduced) → (∀ d ∈ realsOfItems bs, d.IsReduced) →
    itemsTail as ++ ']' :: r = itemsTail bs ++ ']' :: s → as = bs ∧ r = s := by
  intro as bs r s ha hb h
  match as, bs with
  | [], [] => exact ⟨rfl, (List.cons.inj h).2⟩
  | [], _ :: _ => exact absurd (List.cons.inj h).1 (by decide)
  | _ :: _, [] => exact absurd (List.cons.inj h).1 (by decide)
  | a :: as, b :: bs =>
    obtain ⟨hfirst, has⟩ := List.forall_mem_append.1 ha
    obtain ⟨hother, hbs⟩ := List.forall_mem_append.1 hb
    simp only [itemsTail, List.cons_append, List.append_assoc] at h
    obtain ⟨rfl, htail⟩ := compact_append_inj hfirst hother (endsNumeral_itemsTail as r)
      (endsNumeral_itemsTail bs s) (List.cons.inj h).2
    obtain ⟨rfl, hrest⟩ := itemsTail_append_inj has hbs htail
    exact ⟨rfl, hrest⟩

theorem fieldsTail_append_inj : ∀ {as bs : List (String × Json)} {r s : List Char},
    (∀ d ∈ realsOfFields as, d.IsReduced) → (∀ d ∈ realsOfFields bs, d.IsReduced) →
    fieldsTail as ++ '\x7d' :: r = fieldsTail bs ++ '\x7d' :: s → as = bs ∧ r = s := by
  intro as bs r s ha hb h
  match as, bs with
  | [], [] => exact ⟨rfl, (List.cons.inj h).2⟩
  | [], _ :: _ => exact absurd (List.cons.inj h).1 (by decide)
  | _ :: _, [] => exact absurd (List.cons.inj h).1 (by decide)
  | (name, a) :: as, (other, b) :: bs =>
    obtain ⟨hfirst, has⟩ := List.forall_mem_append.1 ha
    obtain ⟨hother, hbs⟩ := List.forall_mem_append.1 hb
    simp only [fieldsTail, List.cons_append, List.append_assoc] at h
    obtain ⟨rfl, hvalue⟩ := quoted_append_inj (List.cons.inj h).2
    obtain ⟨rfl, htail⟩ := compact_append_inj hfirst hother (endsNumeral_fieldsTail as r)
      (endsNumeral_fieldsTail bs s) (List.cons.inj hvalue).2
    obtain ⟨rfl, hrest⟩ := fieldsTail_append_inj has hbs htail
    exact ⟨rfl, hrest⟩

end

theorem compact_inj {a b : Json} (ha : a.IsReduced) (hb : b.IsReduced)
    (h : a.compact = b.compact) : a = b := by
  have hends : EndsNumeral [] := fun _ hc => nomatch hc
  exact (compact_append_inj ha hb hends hends (by rw [h])).1

/-! ### Control characters -/

/-- No character is a control character. -/
def HasNoControls (cs : List Char) : Prop := ∀ c ∈ cs, 0x20 ≤ c.toNat

instance (cs : List Char) : Decidable (HasNoControls cs) := List.decidableBAll _ cs

theorem hasNoControls_append {cs ds : List Char} (hcs : HasNoControls cs)
    (hds : HasNoControls ds) : HasNoControls (cs ++ ds) :=
  List.forall_mem_append.2 ⟨hcs, hds⟩

theorem hasNoControls_cons {c : Char} {cs : List Char} (hc : 0x20 ≤ c.toNat)
    (hcs : HasNoControls cs) : HasNoControls (c :: cs) :=
  List.forall_mem_cons.2 ⟨hc, hcs⟩

theorem hasNoControls_quoted (s : String) : HasNoControls (quoted s).toList := by
  intro c hc
  rw [quoted, String.toList_ofList, List.mem_append, List.mem_singleton, List.mem_cons,
    List.mem_flatMap] at hc
  rcases hc with (rfl | ⟨_, -, hc⟩) | rfl
  · decide
  · exact escape_printable hc
  · decide

theorem hasNoControls_chars (m : Numeral) : HasNoControls m.chars := by
  have hmarks : HasNoControls ['-', '+', '.', 'e'] := by decide
  intro c hc
  rcases Numeral.isDigit_or_mark_of_mem_chars hc with hdigit | hmark
  · have hlow := (Char.isDigit_iff_toNat.1 hdigit).1
    have hzero : '0'.toNat = 48 := rfl
    omega
  · exact hmarks c hmark

/-- The text of a list is that of its elements with a comma before each, without the first. -/
theorem compactItems_subset (items : List Json) :
    (compactItems items).toList ⊆ itemsTail items := by
  cases items with
  | nil => exact List.Subset.refl _
  | cons j rest =>
    rw [toList_compactItems]
    exact List.subset_cons_self _ _

theorem compactFields_subset (fields : List (String × Json)) :
    (compactFields fields).toList ⊆ fieldsTail fields := by
  cases fields with
  | nil => exact List.Subset.refl _
  | cons f rest =>
    rw [toList_compactFields f.1 f.2]
    exact List.subset_cons_self _ _

mutual

/-- **A compact text has no control characters.** -/
theorem hasNoControls_compact : (j : Json) → HasNoControls j.compact.toList
  | null => by decide
  | bool true => by decide
  | bool false => by decide
  | integer n => by
    obtain ⟨m, hm, -⟩ := exists_numeral_integer n
    rw [compact, hm]
    exact hasNoControls_chars m
  | real d => by
    obtain ⟨m, hm, -⟩ := d.exists_numeral_realText
    rw [compact, hm]
    exact hasNoControls_chars m
  | string s => by
    rw [compact]
    exact hasNoControls_quoted s
  | list items => by
    have hitems : HasNoControls (compactItems items).toList :=
      fun c hc => hasNoControls_itemsTail items c (compactItems_subset items hc)
    rw [compact, String.toList_append, String.toList_append]
    exact hasNoControls_append (hasNoControls_append (by decide) hitems) (by decide)
  | object fields => by
    have hfields : HasNoControls (compactFields fields).toList :=
      fun c hc => hasNoControls_fieldsTail fields c (compactFields_subset fields hc)
    rw [compact, String.toList_append, String.toList_append]
    exact hasNoControls_append (hasNoControls_append (by decide) hfields) (by decide)

theorem hasNoControls_itemsTail : (items : List Json) → HasNoControls (itemsTail items)
  | [] => fun _ hc => absurd hc List.not_mem_nil
  | j :: rest => by
    rw [itemsTail]
    exact hasNoControls_append (hasNoControls_cons (by decide) (hasNoControls_compact j))
      (hasNoControls_itemsTail rest)

theorem hasNoControls_fieldsTail :
    (fields : List (String × Json)) → HasNoControls (fieldsTail fields)
  | [] => fun _ hc => absurd hc List.not_mem_nil
  | (name, j) :: rest => by
    rw [fieldsTail]
    exact hasNoControls_append
      (hasNoControls_append (hasNoControls_cons (by decide) (hasNoControls_quoted name))
        (hasNoControls_cons (by decide) (hasNoControls_compact j)))
      (hasNoControls_fieldsTail rest)

end

end EntityTypings.Json
