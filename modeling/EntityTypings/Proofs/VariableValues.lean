import EntityTypings.Settings.Decode
import EntityTypings.Settings.Environment
import Mathlib.Data.List.TakeWhile

/-!
# Values of variables as texts

The value of a variable is taken for a truth value or a number if it can be read as one, and a
setting that is a text takes these as they are printed (`Environment.printed`). So a value does not
always arrive as it was given: words are printed in lower case, integers without a plus sign and
without leading zeros, and other numbers by their shortest digits.

The main statement, `printed_eq_iff`, says which values arrive as they were given (`Verbatim`). All
values do that have a character no number and no word has (`verbatim_of_foreign`), as paths and
addresses do.
-/

namespace EntityTypings.Environment

open Json.Reader

/-! ### Printed digits -/

/-- The number that a text of digits denotes. -/
def valueOf (ds : List Char) : Nat := ofDigits (ds.map fun c => c.toNat - '0'.toNat)

theorem sub_lt_ten {c : Char} (h : c.isDigit) : c.toNat - '0'.toNat < 10 := by
  have hhigh := (Char.isDigit_iff_toNat.1 h).2
  have hnine : '9'.toNat = 57 := rfl
  have hzero : '0'.toNat = 48 := rfl
  omega

/-- The digit of the value of a digit is the digit. -/
theorem digitChar_sub {c : Char} (h : c.isDigit) : Nat.digitChar (c.toNat - '0'.toNat) = c := by
  have hlow := (Char.isDigit_iff_toNat.1 h).1
  have hzero : '0'.toNat = 48 := rfl
  apply Char.toNat_inj.1
  rw [Nat.toNat_digitChar_of_lt_ten (sub_lt_ten h)]
  omega

/-- Digits after a number that is not zero are printed as they are. -/
theorem toDigits_append_digits {ds : List Char} (hds : ∀ c ∈ ds, c.isDigit) {n : Nat}
    (hn : 0 < n) :
    Nat.toDigits 10 n ++ ds =
      Nat.toDigits 10 (ds.foldl (fun n c => 10 * n + (c.toNat - '0'.toNat)) n) := by
  induction ds generalizing n with
  | nil => simp
  | cons c cs ih =>
    have hc : c.isDigit := hds c List.mem_cons_self
    have hstep := Nat.toDigits_append_toDigits (b := 10) (by decide) hn (sub_lt_ten hc)
    rw [Nat.toDigits_of_lt_base (sub_lt_ten hc), digitChar_sub hc] at hstep
    rw [List.foldl_cons, ← ih (fun d hd => hds d (List.mem_cons_of_mem _ hd)) (by omega), ← hstep]
    simp

/-- A printed number does not start with a zero, unless it is zero. -/
theorem eq_zero_of_head?_toDigits {n : Nat} (h : (Nat.toDigits 10 n).head? = some '0') : n = 0 := by
  induction n using Nat.strongRecOn with
  | ind n ih =>
    by_cases hn : n < 10
    · rw [Nat.toDigits_of_lt_base hn] at h
      exact (by decide : ∀ n < 10, [Nat.digitChar n].head? = some '0' → n = 0) n hn h
    · rw [Nat.toDigits_of_base_le (by decide) (by omega), List.head?_append] at h
      obtain ⟨c, cs, hcs⟩ :=
        List.exists_cons_of_ne_nil (Nat.toDigits_ne_nil (n := n / 10) (b := 10))
      have hdiv := ih (n / 10) (by omega) (by simpa [hcs] using h)
      omega

/-- Digits are printed as they are if they have no leading zero. -/
theorem toDigits_valueOf_iff {ds : List Char} (hds : ∀ c ∈ ds, c.isDigit) (hne : ds ≠ []) :
    Nat.toDigits 10 (valueOf ds) = ds ↔ ds = ['0'] ∨ ds.head? ≠ some '0' := by
  obtain ⟨c, cs, rfl⟩ := List.exists_cons_of_ne_nil hne
  constructor
  · intro h
    by_cases hzero : c = '0'
    · subst hzero
      have hvalue : valueOf ('0' :: cs) = 0 := eq_zero_of_head?_toDigits (by rw [h]; rfl)
      rw [hvalue, Nat.toDigits_zero] at h
      exact .inl h.symm
    · exact .inr (by simpa using hzero)
  · rintro (h | h)
    · rw [h]
      rfl
    · have hc : c.isDigit := hds c List.mem_cons_self
      have hpos : 0 < c.toNat - '0'.toNat := by
        refine Nat.pos_of_ne_zero fun hzero => h ?_
        have hchar := digitChar_sub hc
        rw [hzero] at hchar
        exact congrArg some hchar.symm
      have happend := toDigits_append_digits (fun d hd => hds d (List.mem_cons_of_mem _ hd)) hpos
      rw [Nat.toDigits_of_lt_base (sub_lt_ten hc), digitChar_sub hc] at happend
      rw [valueOf, ofDigits, List.foldl_map, List.foldl_cons, Nat.mul_zero, Nat.zero_add, ← happend]
      rfl

/-! ### Integers -/

/-- A text is an integer as it is printed: without a plus sign, without leading zeros, and zero
without a minus sign. -/
def IsPlainInteger (text : List Char) : Prop :=
  text = ['0'] ∨ text.head? ≠ some '0' ∧ text.head? ≠ some '+' ∧ ¬['-', '0'] <+: text

/-- A text without a rest after its digits is made of digits. -/
theorem isDigit_of_digits_eq {text : List Char} {values : List Nat}
    (h : digits text = (values, [])) :
    values = text.map (fun c => c.toNat - '0'.toNat) ∧ ∀ c ∈ text, c.isDigit := by
  obtain ⟨hvalues, hrest⟩ := Prod.mk.inj h
  have hall := List.dropWhile_eq_nil_iff.1 hrest
  rw [List.takeWhile_eq_self_iff.2 hall] at hvalues
  exact ⟨hvalues.symm, hall⟩

/-- A text that spells an integer has digits after a sign, or digits alone. -/
theorem integer?_eq_some {text : List Char} {n : Int} (h : integer? text = some n) :
    ∃ ds : List Char, ds ≠ [] ∧ (∀ c ∈ ds, c.isDigit) ∧
      (text = '-' :: ds ∧ n = -(valueOf ds : Int) ∨
        (text = '+' :: ds ∨ text = ds) ∧ n = (valueOf ds : Int)) := by
  unfold integer? at h
  split at h
  rename_i negative ds hsign
  split at h
  · cases h
  · rename_i values hne hdigits
    obtain ⟨rfl, hall⟩ := isDigit_of_digits_eq hdigits
    have hds : ds ≠ [] := fun hnil => hne (by rw [hnil]; rfl)
    have hn : n = if negative then -(valueOf ds : Int) else valueOf ds :=
      (Option.some.inj (Option.ite_none_right_eq_some.1 h).2).symm
    refine ⟨ds, hds, hall, ?_⟩
    split at hsign
    · cases hsign
      exact .inl ⟨rfl, hn⟩
    · cases hsign
      exact .inr ⟨.inl rfl, hn⟩
    · cases hsign
      exact .inr ⟨.inr rfl, hn⟩
  · cases h

theorem toList_toString_natCast (k : Nat) : (toString (k : Int)).toList = Nat.toDigits 10 k := by
  show (toString k).toList = _
  rw [Nat.toString_eq_repr, Nat.toList_repr]

/-- A negative number is printed with a minus sign. -/
theorem toList_toString_neg {k : Nat} (hk : 0 < k) :
    (toString (-(k : Int))).toList = '-' :: Nat.toDigits 10 k := by
  obtain ⟨k, rfl⟩ := Nat.exists_eq_succ_of_ne_zero hk.ne'
  show ("-" ++ toString (k + 1)).toList = _
  rw [String.toList_append, Nat.toString_eq_repr, Nat.toList_repr]
  rfl

section

variable {ds : List Char} (hds : ∀ c ∈ ds, c.isDigit) (hne : ds ≠ [])

include hds hne

/-- Digits after a minus sign are printed as they are if they do not start with a zero. -/
theorem toList_toString_neg_valueOf_iff :
    (toString (-(valueOf ds : Int))).toList = '-' :: ds ↔ IsPlainInteger ('-' :: ds) := by
  have hiff := toDigits_valueOf_iff hds hne
  have hplain : IsPlainInteger ('-' :: ds) ↔ ds.head? ≠ some '0' := by
    cases ds <;> simp [IsPlainInteger, eq_comm]
  rw [hplain]
  by_cases hzero : valueOf ds = 0
  · -- zero is printed without a sign, and digits of zero start with a zero
    rw [hzero, Nat.toDigits_zero] at hiff
    have hhead : ds.head? = some '0' := by
      by_contra hhead
      exact hhead (hiff.2 (.inr hhead) ▸ rfl)
    have hprinted : (toString (-((0 : Nat) : Int))).toList = ['0'] := rfl
    rw [hzero, hprinted]
    simp [hhead]
  · have hlone : ds ≠ ['0'] := by
      rintro rfl
      exact hzero rfl
    rw [toList_toString_neg (Nat.pos_of_ne_zero hzero), List.cons_inj_right, hiff]
    simp [hlone]

/-- Digits alone are printed as they are if they have no leading zero. -/
theorem toList_toString_valueOf_iff :
    (toString (valueOf ds : Int)).toList = ds ↔ IsPlainInteger ds := by
  obtain ⟨c, cs, rfl⟩ := List.exists_cons_of_ne_nil hne
  have hc : c.isDigit := hds c List.mem_cons_self
  have hplus : c ≠ '+' := by
    rintro rfl
    cases hc
  have hminus : c ≠ '-' := by
    rintro rfl
    cases hc
  rw [toList_toString_natCast, toDigits_valueOf_iff hds hne]
  simp [IsPlainInteger, hplus, hminus.symm]

end

/-- No number is printed with a plus sign. -/
theorem toList_toString_natCast_ne_plus (k : Nat) (ds : List Char) :
    (toString (k : Int)).toList ≠ '+' :: ds := by
  intro heq
  rw [toList_toString_natCast] at heq
  have hplus : ('+' : Char).isDigit :=
    Nat.isDigit_of_mem_toDigits (by decide) (by decide) (heq ▸ List.mem_cons_self)
  cases hplus

/-- An integer is printed as it was spelled if it was spelled as integers are printed. -/
theorem toList_toString_eq_iff {text : List Char} {n : Int} (h : integer? text = some n) :
    (toString n).toList = text ↔ IsPlainInteger text := by
  obtain ⟨ds, hne, hds, hform⟩ := integer?_eq_some h
  rcases hform with ⟨rfl, rfl⟩ | ⟨rfl | rfl, rfl⟩
  · exact toList_toString_neg_valueOf_iff hds hne
  · have hplus := toList_toString_natCast_ne_plus (valueOf ds) ds
    simp only [hplus, false_iff]
    simp [IsPlainInteger]
  · exact toList_toString_valueOf_iff hds hne

/-! ### Printed values -/

/-- The text that a setting takes from a variable. -/
def printed (value : String) : String := ((typed value).asText?).getD value

/-- A text arrives as it was given: a word for a truth value is in lower case, an integer has no
plus sign and no needless zero, and any other number is spelled by its shortest digits. -/
structure Verbatim (value : String) : Prop where
  /-- A word for a truth value is in lower case. -/
  word : lowerCase value = "true" ∨ lowerCase value = "false" → lowerCase value = value
  /-- An integer is spelled as integers are printed. -/
  integer : ∀ n, integer? value.toList = some n → IsPlainInteger value.toList
  /-- Any other number is spelled as it is printed. -/
  real : ∀ x, integer? value.toList = none → real? value.toList = some x → x.text = value

/-- A value is a scalar, and so it is printed as a text. -/
theorem asText?_typed (value : String) : (typed value).asText? = some (printed value) := by
  unfold printed typed
  repeat' split
  all_goals rfl

/-- The words that truth values are printed as arrive as they are. -/
theorem verbatim_toString (b : Bool) : Verbatim (toString b) := by
  have hword : ∀ b : Bool, lowerCase (toString b) = toString b := by decide +kernel
  have hinteger : ∀ b : Bool, integer? (toString b).toList = none := by decide +kernel
  have hreal : ∀ b : Bool, real? (toString b).toList = none := by decide +kernel
  refine ⟨fun _ => hword b, fun n hn => ?_, fun x _ hx => ?_⟩
  · rw [hinteger] at hn
    cases hn
  · rw [hreal] at hx
    cases hx

/-- **A value arrives as it was given exactly if it is spelled as it is printed.** -/
theorem printed_eq_iff (value : String) : printed value = value ↔ Verbatim value := by
  unfold printed typed
  split
  · rename_i htrue
    exact ⟨fun h => h ▸ verbatim_toString true, fun h => htrue.symm.trans (h.word (.inl htrue))⟩
  · rename_i htrue
    split
    · rename_i hfalse
      exact ⟨fun h => h ▸ verbatim_toString false,
        fun h => hfalse.symm.trans (h.word (.inr hfalse))⟩
    · rename_i hfalse
      have hword : lowerCase value = "true" ∨ lowerCase value = "false" → lowerCase value = value :=
        fun h => (h.elim htrue hfalse).elim
      split
      · rename_i n hn
        show toString n = value ↔ _
        rw [← String.toList_inj, toList_toString_eq_iff hn]
        refine ⟨fun h => ⟨hword, fun _ _ => h, fun x hnone => ?_⟩, fun h => h.integer n hn⟩
        rw [hn] at hnone
        cases hnone
      · rename_i hnone
        split
        · rename_i x hx
          refine ⟨fun h => ⟨hword, fun n hn => ?_, fun y _ hy => ?_⟩, fun h => h.real x hnone hx⟩
          · rw [hn] at hnone
            cases hnone
          · rw [hx] at hy
            cases hy
            exact h
        · rename_i hx
          refine ⟨fun _ => ⟨hword, fun n hn => ?_, fun y _ hy => ?_⟩, fun _ => rfl⟩
          · rw [hn] at hnone
            cases hnone
          · rw [hx] at hy
            cases hy

/-! ### Values with other characters -/

/-- The characters of numbers and of the words for truth values and numbers, in lower case. -/
def alphabet : List Char := "0123456789+-.aefilnrstuy".toList

/-- A character that numbers and words do not have. -/
def isForeign (c : Char) : Bool := !alphabet.contains (lowerCaseChar c)

/-- A character of a number. -/
def IsNumberChar (c : Char) : Prop := c.isDigit ∨ c ∈ ['+', '-', '.', 'e', 'E']

theorem isForeign_of_isNumberChar {c : Char} (h : IsNumberChar c) : isForeign c = false := by
  rcases h with h | h
  · have hdigits : ∀ k < 10, isForeign (Nat.digitChar k) = false := by decide +kernel
    exact digitChar_sub h ▸ hdigits _ (sub_lt_ten h)
  · have hall : ['+', '-', '.', 'e', 'E'].all (!isForeign ·) := by decide +kernel
    simpa using List.all_eq_true.1 hall c h

/-- The characters of a text are digits and those after the digits. -/
theorem mem_of_digits {text rest : List Char} {values : List Nat} (h : digits text = (values, rest))
    {c : Char} (hc : c ∈ text) : c.isDigit ∨ c ∈ rest := by
  obtain ⟨-, rfl⟩ := Prod.mk.inj h
  rw [← List.takeWhile_append_dropWhile (p := Char.isDigit) (l := text), List.mem_append] at hc
  exact hc.imp_left List.mem_takeWhile_imp

theorem isNumberChar_of_exponentDigits {text : List Char} {k : Nat}
    (h : exponentDigits text = some (k, [])) {c : Char} (hc : c ∈ text) : IsNumberChar c := by
  unfold exponentDigits at h
  split at h
  · cases h
  · rename_i ds rest _ hdigits
    cases h
    exact .inl ((isDigit_of_digits_eq hdigits).2 c hc)

theorem isNumberChar_of_signedExponent {text : List Char} {e : Int}
    (h : signedExponent text = some (e, [])) {c : Char} (hc : c ∈ text) : IsNumberChar c := by
  unfold signedExponent at h
  split at h
  all_goals
    obtain ⟨⟨k, rest⟩, hdigits, hrest⟩ := Option.map_eq_some_iff.1 h
    cases hrest
  · rcases List.mem_cons.1 hc with rfl | hc
    · exact .inr (by decide)
    · exact isNumberChar_of_exponentDigits hdigits hc
  · rcases List.mem_cons.1 hc with rfl | hc
    · exact .inr (by decide)
    · exact isNumberChar_of_exponentDigits hdigits hc
  · exact isNumberChar_of_exponentDigits hdigits hc

theorem isNumberChar_of_exponent {text : List Char} {e : Int} (h : exponent? text = some e)
    {c : Char} (hc : c ∈ text) : IsNumberChar c := by
  cases text with
  | nil => cases hc
  | cons first rest =>
    rw [exponent?] at h
    split at h
    · rename_i hfirst
      split at h
      · rename_i hexponent
        rcases List.mem_cons.1 hc with rfl | hc
        · exact .inr (by rcases hfirst with rfl | rfl <;> decide)
        · exact isNumberChar_of_signedExponent hexponent hc
      · cases h
    · cases h

theorem isNumberChar_of_decimal {negative : Bool} {text : List Char} {x : FloatValue}
    (h : decimal? negative text = some x) {c : Char} (hc : c ∈ text) : IsNumberChar c := by
  unfold decimal? at h
  split at h
  rename_i whole rest hwhole
  split at h
  rename_i fraction after hfraction
  split at h
  · cases h
  · obtain ⟨e, he, -⟩ := Option.map_eq_some_iff.1 h
    have hafter : c ∈ rest → IsNumberChar c := by
      intro hc
      split at hfraction
      · rcases List.mem_cons.1 hc with rfl | hc
        · exact .inr (by decide)
        · exact (mem_of_digits hfraction hc).elim .inl (isNumberChar_of_exponent he)
      · cases hfraction
        exact isNumberChar_of_exponent he hc
    exact (mem_of_digits hwhole hc).elim .inl hafter

/-- A text with a foreign character is no word. -/
theorem lowerCase_ne_of_foreign {text word : String} (hword : word.toList.all alphabet.contains)
    {c : Char} (hc : c ∈ text.toList) (hforeign : isForeign c) : lowerCase text ≠ word := by
  rintro rfl
  have hmem : lowerCaseChar c ∈ (lowerCase text).toList := by
    rw [lowerCase, String.toList_map]
    exact List.mem_map_of_mem hc
  rw [isForeign, List.all_eq_true.1 hword _ hmem] at hforeign
  cases hforeign

/-- A text with a foreign character is no integer. -/
theorem integer?_of_foreign {text : List Char} {c : Char} (hc : c ∈ text) (hforeign : isForeign c) :
    integer? text = none := by
  by_contra h
  obtain ⟨n, hn⟩ := Option.ne_none_iff_exists'.1 h
  obtain ⟨ds, -, hds, hform⟩ := integer?_eq_some hn
  have hnumber : IsNumberChar c := by
    rcases hform with ⟨rfl, -⟩ | ⟨rfl | rfl, -⟩
    · rcases List.mem_cons.1 hc with rfl | hc
      · exact .inr (by decide)
      · exact .inl (hds c hc)
    · rcases List.mem_cons.1 hc with rfl | hc
      · exact .inr (by decide)
      · exact .inl (hds c hc)
    · exact .inl (hds c hc)
  rw [isForeign_of_isNumberChar hnumber] at hforeign
  cases hforeign

theorem unsigned?_of_foreign {negative : Bool} {text : List Char} {c : Char} (hc : c ∈ text)
    (hforeign : isForeign c) : unsigned? negative text = none := by
  have hword {word : String} (hword : word.toList.all alphabet.contains) :
      lowerCase (String.ofList text) ≠ word :=
    lowerCase_ne_of_foreign hword (by rwa [String.toList_ofList]) hforeign
  have hinfinite : ¬(lowerCase (String.ofList text) = "inf" ∨
      lowerCase (String.ofList text) = "infinity") :=
    not_or.2 ⟨hword (by decide +kernel), hword (by decide +kernel)⟩
  rw [unsigned?, if_neg hinfinite, if_neg (hword (by decide +kernel))]
  by_contra h
  obtain ⟨x, hx⟩ := Option.ne_none_iff_exists'.1 h
  rw [isForeign_of_isNumberChar (isNumberChar_of_decimal hx hc)] at hforeign
  cases hforeign

/-- A text with a foreign character is no number. -/
theorem real?_of_foreign {text : List Char} {c : Char} (hc : c ∈ text) (hforeign : isForeign c) :
    real? text = none := by
  unfold real?
  split
  · refine unsigned?_of_foreign ((List.mem_cons.1 hc).resolve_left ?_) hforeign
    rintro rfl
    cases hforeign
  · refine unsigned?_of_foreign ((List.mem_cons.1 hc).resolve_left ?_) hforeign
    rintro rfl
    cases hforeign
  · exact unsigned?_of_foreign hc hforeign

/-- **A value with a foreign character arrives as it was given.** -/
theorem verbatim_of_foreign {value : String} {c : Char} (hc : c ∈ value.toList)
    (hforeign : isForeign c) : Verbatim value := by
  refine ⟨fun hword => ?_, fun n hn => ?_, fun x _ hx => ?_⟩
  · rcases hword with htrue | hfalse
    · exact absurd htrue (lowerCase_ne_of_foreign (by decide +kernel) hc hforeign)
    · exact absurd hfalse (lowerCase_ne_of_foreign (by decide +kernel) hc hforeign)
  · rw [integer?_of_foreign hc hforeign] at hn
    cases hn
  · rw [real?_of_foreign hc hforeign] at hx
    cases hx

end EntityTypings.Environment
