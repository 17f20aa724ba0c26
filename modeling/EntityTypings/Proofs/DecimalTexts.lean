import EntityTypings.Json.Writer
import EntityTypings.Proofs.VariableValues
import Mathlib.Algebra.Group.Nat.Defs

/-!
# Numbers and their texts

A number in JSON is written as digits that can have a sign before them, a point among them and an
exponent behind them. Here it is shown that the text says which number is meant, and where it ends,
as long as what follows could not be part of a number (`EndsNumeral`).

A text is taken apart into a `Numeral`, and there is only one way to do so (`chars_append_inj`). The
numeral of an integer has neither point nor exponent. That of a decimal has one of them, and its
digits are those of the decimal with some zeros appended, so it has the same value
(`exists_numeral_realText`). A value is that of many decimals, but only of one that is reduced
(`IsReduced.eq`), as every decimal is that rounding gives (`isReduced_toDecimal`).
-/

namespace EntityTypings

namespace Decimal

/-! ### Reduced decimals -/

/-- The digits do not end in zero, unless they are zero, and then the exponent is zero. -/
def IsReduced (d : Decimal) : Prop :=
  (d.digits % 10 = 0 → d.digits = 0) ∧ (d.digits = 0 → d.exponent = 0)

instance (d : Decimal) : Decidable d.IsReduced := inferInstanceAs (Decidable (_ ∧ _))

/-- The magnitude of the decimal is `significand · 10 ^ power`, the decimal having the fewer
digits. -/
def HasMagnitude (d : Decimal) (significand : Nat) (power : Int) : Prop :=
  ∃ zeros : Nat, significand = d.digits * 10 ^ zeros ∧ power = d.exponent - zeros

/-- The digits of a reduced decimal are those of no other that has fewer. -/
theorem IsReduced.zeros_eq_zero {d e : Decimal} (hd : d.IsReduced) (he : e.IsReduced) {k : Nat}
    (hdigits : d.digits = e.digits * 10 ^ k) (hexponent : d.exponent + k = e.exponent) : k = 0 := by
  cases k with
  | zero => rfl
  | succ k =>
    have hzero : d.digits = 0 := hd.1 (by rw [hdigits, Nat.pow_succ, ← Nat.mul_assoc]; omega)
    have hten : 0 < 10 ^ (k + 1) := Nat.pow_pos (by decide)
    have hezero : e.digits = 0 := by
      rw [hdigits] at hzero
      exact (Nat.mul_eq_zero.1 hzero).resolve_right hten.ne'
    rw [hd.2 hzero, he.2 hezero] at hexponent
    omega

/-- **Reduced decimals of one sign and one magnitude are equal.** -/
theorem IsReduced.eq {d e : Decimal} (hd : d.IsReduced) (he : e.IsReduced)
    (hsign : d.negative = e.negative) {significand : Nat} {power : Int}
    (hdvalue : d.HasMagnitude significand power) (hevalue : e.HasMagnitude significand power) :
    d = e := by
  obtain ⟨j, hdj, hpj⟩ := hdvalue
  obtain ⟨k, hek, hpk⟩ := hevalue
  have hcancel {a b : Decimal} {i l : Nat} (hle : i ≤ l)
      (h : a.digits * 10 ^ i = b.digits * 10 ^ l) : a.digits = b.digits * 10 ^ (l - i) := by
    have hten : 0 < 10 ^ i := Nat.pow_pos (by decide)
    refine Nat.eq_of_mul_eq_mul_right hten ?_
    rw [h, Nat.mul_assoc, ← Nat.pow_add, Nat.sub_add_cancel hle]
  -- With more zeros to cancel on one side, the digits of the other would end in one.
  have hjk : j = k := by
    rcases Nat.le_total j k with hle | hle
    · have hzero := hd.zeros_eq_zero he (hcancel hle (hdj.symm.trans hek)) (by omega)
      omega
    · have hzero := he.zeros_eq_zero hd (hcancel hle (hek.symm.trans hdj)) (by omega)
      omega
  subst hjk
  have hdigits := hcancel (Nat.le_refl j) (hdj.symm.trans hek)
  rw [Nat.sub_self, Nat.pow_zero, Nat.mul_one] at hdigits
  have hexponent : d.exponent = e.exponent := by omega
  cases d
  cases e
  exact (Decimal.mk.injEq ..).mpr ⟨hsign, hdigits, hexponent⟩

end Decimal

namespace Binary64

theorem isReduced_withoutTrailingZeros (negative : Bool) (digits : Nat) (exponent : Int) :
    (Decimal.mk negative (withoutTrailingZeros digits exponent).1
      (withoutTrailingZeros digits exponent).2).IsReduced := by
  fun_induction withoutTrailingZeros digits exponent with
  | case1 digits exponent h ih => exact ih
  | case2 digits exponent h =>
    refine ⟨fun hten => ?_, fun hzero => if_pos hzero⟩
    exact Classical.byContradiction fun hne => h ⟨hne, hten⟩

/-- **Rounding gives reduced decimals.** -/
theorem isReduced_toDecimal (x : Binary64) (rule : HalfwayRule) (negative : Bool) :
    (x.toDecimal rule negative).IsReduced := by
  have hzero : (Decimal.mk negative 0 0).IsReduced := ⟨fun _ => rfl, fun _ => rfl⟩
  simp only [toDecimal, shortest]
  split
  · exact hzero
  · split
    · exact isReduced_withoutTrailingZeros _ _ _
    · exact hzero

end Binary64

/-! ### Numerals -/

/-- Decimal digits. -/
structure Digits where
  /-- The digits as characters. -/
  chars : List Char
  /-- Each of them is a digit. -/
  isDigit : ∀ c ∈ chars, c.isDigit = true

namespace Digits

theorem ext {ds es : Digits} (h : ds.chars = es.chars) : ds = es := by
  cases ds
  exact (Digits.mk.injEq ..).mpr h

/-- The number that the digits denote. -/
def value (ds : Digits) : Nat := Nat.ofDigitChars 10 ds.chars 0

/-- The digits of a number. -/
def ofNat (n : Nat) : Digits :=
  ⟨Nat.toDigits 10 n, fun _ hc => Nat.isDigit_of_mem_toDigits (by decide) (by decide) hc⟩

/-- Zeros. -/
def zeros (count : Nat) : Digits :=
  ⟨List.replicate count '0', fun _ hc => List.eq_of_mem_replicate hc ▸ rfl⟩

/-- Digits and others behind them. -/
def append (ds es : Digits) : Digits :=
  ⟨ds.chars ++ es.chars, List.forall_mem_append.2 ⟨ds.isDigit, es.isDigit⟩⟩

/-- The first digits. -/
def take (count : Nat) (ds : Digits) : Digits :=
  ⟨ds.chars.take count, fun c hc => ds.isDigit c (List.mem_of_mem_take hc)⟩

/-- The digits without the first. -/
def drop (count : Nat) (ds : Digits) : Digits :=
  ⟨ds.chars.drop count, fun c hc => ds.isDigit c (List.mem_of_mem_drop hc)⟩

variable (ds es : Digits) (count n : Nat)

@[simp] theorem chars_zeros : (zeros count).chars = List.replicate count '0' := rfl

@[simp] theorem chars_append : (ds.append es).chars = ds.chars ++ es.chars := rfl

@[simp] theorem chars_take : (ds.take count).chars = ds.chars.take count := rfl

@[simp] theorem chars_drop : (ds.drop count).chars = ds.chars.drop count := rfl

@[simp] theorem chars_ofNat_ne_nil : (ofNat n).chars ≠ [] := Nat.toDigits_ne_nil

@[simp] theorem value_ofNat : (ofNat n).value = n :=
  Nat.ofDigitChars_toDigits (by decide) (by decide)

theorem value_append_zeros : (ds.append (zeros count)).value = ds.value * 10 ^ count := by
  rw [value, chars_append, chars_zeros, Nat.ofDigitChars_append, Nat.ofDigitChars_replicate_zero,
    Nat.mul_comm, value]

theorem value_zeros_append : ((zeros count).append ds).value = ds.value := by
  rw [value, chars_append, chars_zeros, Nat.ofDigitChars_append, Nat.ofDigitChars_replicate_zero,
    Nat.mul_zero, value]

theorem take_append_drop : (ds.take count).append (ds.drop count) = ds :=
  ext (List.take_append_drop count ds.chars)

variable {ds es}

/-- Where digits end is told by what follows. -/
theorem append_inj {r s : List Char} (hr : ∀ c ∈ r.head?, c.isDigit = false)
    (hs : ∀ c ∈ s.head?, c.isDigit = false) (h : ds.chars ++ r = es.chars ++ s) :
    ds = es ∧ r = s := by
  have hspan {t : List Char} (ht : ∀ c ∈ t.head?, c.isDigit = false) (gs : Digits) :
      (gs.chars ++ t).takeWhile Char.isDigit = gs.chars := by
    rw [List.takeWhile_append_of_pos gs.isDigit]
    cases t with
    | nil => simp
    | cons c t => simp [ht c rfl]
  have hdigits : ds.chars = es.chars := by rw [← hspan hr ds, h, hspan hs es]
  rw [hdigits, List.append_cancel_left_eq] at h
  exact ⟨ext hdigits, h⟩

end Digits

/-- The parts of the text of a number. -/
structure Numeral where
  /-- Whether there is a minus sign. -/
  negative : Bool
  /-- The digits before the point. -/
  whole : Digits
  /-- There are some. -/
  whole_ne_nil : whole.chars ≠ []
  /-- The digits behind the point, if there is one. -/
  fraction : Option Digits
  /-- The exponent, if there is one: whether it is negative, and its digits. -/
  exponent : Option (Bool × Digits)

/-- What follows is no part of a number. -/
def EndsNumeral (r : List Char) : Prop :=
  ∀ c ∈ r.head?, c.isDigit = false ∧ c ≠ '.' ∧ c ≠ 'e'

namespace Numeral

/-- The exponent as it is written. -/
def exponentChars : Option (Bool × Digits) → List Char
  | none => []
  | some (negative, ds) => 'e' :: (if negative then '-' else '+') :: ds.chars

/-- The fraction as it is written. -/
def fractionChars : Option Digits → List Char
  | none => []
  | some ds => '.' :: ds.chars

/-- The numeral as it is written. -/
def chars (m : Numeral) : List Char :=
  (if m.negative then ['-'] else []) ++ m.whole.chars ++ fractionChars m.fraction
    ++ exponentChars m.exponent

/-- The digits behind the point. -/
def places (m : Numeral) : Digits := m.fraction.getD (.zeros 0)

/-- The number that all digits denote, those behind the point included. -/
def significand (m : Numeral) : Nat := (m.whole.append m.places).value

/-- The number that an exponent denotes. -/
def exponentValue : Option (Bool × Digits) → Int
  | none => 0
  | some (true, ds) => -(ds.value : Int)
  | some (false, ds) => ds.value

/-- The power of ten of the last digit. -/
def power (m : Numeral) : Int := exponentValue m.exponent - m.places.chars.length

theorem exponentChars_append_inj {x y : Option (Bool × Digits)} {r s : List Char}
    (hr : EndsNumeral r) (hs : EndsNumeral s)
    (h : exponentChars x ++ r = exponentChars y ++ s) : x = y ∧ r = s := by
  match x, y with
  | none, none => exact ⟨rfl, h⟩
  | none, some (_, _) =>
    obtain rfl : r = _ := h
    exact absurd rfl (hr 'e' rfl).2.2
  | some (_, _), none =>
    obtain rfl : _ = s := h
    exact absurd rfl (hs 'e' rfl).2.2
  | some (a, ds), some (b, es) =>
    obtain ⟨hsign, hrest⟩ := List.cons.inj (List.cons.inj h).2
    have hab : a = b := by cases a <;> cases b <;> first | rfl | cases hsign
    obtain ⟨rfl, htail⟩ :=
      Digits.append_inj (fun c hc => (hr c hc).1) (fun c hc => (hs c hc).1) hrest
    exact ⟨by rw [hab], htail⟩

/-- Neither a digit nor a point follows the digits of a numeral. -/
theorem head_exponentChars {x : Option (Bool × Digits)} {r : List Char} (hr : EndsNumeral r) :
    ∀ c ∈ (exponentChars x ++ r).head?, c.isDigit = false ∧ c ≠ '.' := by
  intro c hc
  match x with
  | none => exact ⟨(hr c hc).1, (hr c hc).2.1⟩
  | some (_, _) =>
    obtain rfl : 'e' = c := Option.some.inj hc
    decide

theorem fractionChars_append_inj {f g : Option Digits} {r s : List Char}
    (hr : ∀ c ∈ r.head?, c.isDigit = false ∧ c ≠ '.')
    (hs : ∀ c ∈ s.head?, c.isDigit = false ∧ c ≠ '.')
    (h : fractionChars f ++ r = fractionChars g ++ s) : f = g ∧ r = s := by
  match f, g with
  | none, none => exact ⟨rfl, h⟩
  | none, some _ =>
    obtain rfl : r = _ := h
    exact absurd rfl (hr '.' rfl).2
  | some _, none =>
    obtain rfl : _ = s := h
    exact absurd rfl (hs '.' rfl).2
  | some ds, some es =>
    obtain ⟨rfl, hrest⟩ := Digits.append_inj (fun c hc => (hr c hc).1) (fun c hc => (hs c hc).1)
      (List.cons.inj h).2
    exact ⟨rfl, hrest⟩

/-- No digit follows the digits before the point. -/
theorem head_fractionChars {f : Option Digits} {r : List Char}
    (hr : ∀ c ∈ r.head?, c.isDigit = false ∧ c ≠ '.') :
    ∀ c ∈ (fractionChars f ++ r).head?, c.isDigit = false := by
  intro c hc
  match f with
  | none => exact (hr c hc).1
  | some _ =>
    obtain rfl : '.' = c := Option.some.inj hc
    decide

/-- The minus sign is told by the first character, which otherwise is a digit. -/
theorem sign_append_inj {a b : Bool} {ds es : Digits} {r s : List Char} (hds : ds.chars ≠ [])
    (hes : es.chars ≠ []) (h : (if a then ['-'] else []) ++ (ds.chars ++ r) =
      (if b then ['-'] else []) ++ (es.chars ++ s)) :
    a = b ∧ ds.chars ++ r = es.chars ++ s := by
  have hdigit {gs : Digits} (hgs : gs.chars ≠ []) {t u : List Char} : gs.chars ++ t ≠ '-' :: u := by
    obtain ⟨c, cs, hcs⟩ := List.exists_cons_of_ne_nil hgs
    intro heq
    rw [hcs] at heq
    have hc := gs.isDigit c (hcs ▸ List.mem_cons_self)
    rw [(List.cons.inj heq).1] at hc
    cases hc
  cases a <;> cases b
  · exact ⟨rfl, h⟩
  · exact absurd h (hdigit hds)
  · exact absurd h.symm (hdigit hes)
  · exact ⟨rfl, (List.cons.inj h).2⟩

/-- A numeral has digits, signs, a point and the mark of an exponent only. -/
theorem isDigit_or_mark_of_mem_chars {m : Numeral} {c : Char} (hc : c ∈ m.chars) :
    c.isDigit = true ∨ c ∈ ['-', '+', '.', 'e'] := by
  have hfraction {f : Option Digits} (h : c ∈ fractionChars f) : c.isDigit = true ∨ c = '.' := by
    match f with
    | some ds => exact (List.mem_cons.1 h).elim .inr fun hds => .inl (ds.isDigit c hds)
  have hexponent {x : Option (Bool × Digits)} (h : c ∈ exponentChars x) :
      c.isDigit = true ∨ c ∈ ['-', '+', 'e'] := by
    match x with
    | some (negative, ds) =>
      rcases List.mem_cons.1 h with rfl | h
      · exact .inr (by decide)
      · rcases List.mem_cons.1 h with rfl | hds
        · cases negative <;> exact .inr (by decide)
        · exact .inl (ds.isDigit c hds)
  rw [chars, List.mem_append, List.mem_append, List.mem_append] at hc
  rcases hc with ((hsign | hwhole) | hplaces) | hpower
  · split at hsign
    · rw [List.mem_singleton.1 hsign]
      exact .inr (by decide)
    · cases hsign
  · exact .inl (m.whole.isDigit c hwhole)
  · exact (hfraction hplaces).imp_right fun h => by rw [h]; decide
  · refine (hexponent hpower).imp_right fun h => ?_
    simp only [List.mem_cons, List.not_mem_nil, or_false] at h ⊢
    exact h.imp_right fun h => h.imp_right .inr

/-- A numeral starts with a minus sign or a digit. -/
theorem exists_chars_eq_cons (m : Numeral) :
    ∃ c cs, m.chars = c :: cs ∧ (c = '-' ∨ c.isDigit = true) := by
  obtain ⟨c, cs, hcs⟩ := List.exists_cons_of_ne_nil m.whole_ne_nil
  have hc := m.whole.isDigit c (hcs ▸ List.mem_cons_self)
  cases hsign : m.negative with
  | true => exact ⟨'-', _, by rw [chars, hsign]; rfl, .inl rfl⟩
  | false => exact ⟨c, _, by rw [chars, hsign, hcs]; rfl, .inr hc⟩

/-- **A text can be taken for a numeral in one way only.** -/
theorem chars_append_inj {m n : Numeral} {r s : List Char} (hr : EndsNumeral r)
    (hs : EndsNumeral s) (h : m.chars ++ r = n.chars ++ s) : m = n ∧ r = s := by
  simp only [chars, List.append_assoc] at h
  obtain ⟨hsign, h⟩ := sign_append_inj m.whole_ne_nil n.whole_ne_nil h
  obtain ⟨hwhole, h⟩ := Digits.append_inj (head_fractionChars (head_exponentChars hr))
    (head_fractionChars (head_exponentChars hs)) h
  obtain ⟨hfraction, h⟩ :=
    fractionChars_append_inj (head_exponentChars hr) (head_exponentChars hs) h
  obtain ⟨hexponent, h⟩ := exponentChars_append_inj hr hs h
  refine ⟨?_, h⟩
  cases m
  cases n
  exact (Numeral.mk.injEq ..).mpr ⟨hsign, hwhole, hfraction, hexponent⟩

end Numeral

/-! ### Texts of integers and decimals -/

/-- An integer is written as a numeral without point and exponent. -/
theorem exists_numeral_integer (n : Int) : ∃ m : Numeral, (toString n).toList = m.chars ∧
    m.fraction = none ∧ m.exponent = none ∧
      n = if m.negative then -(m.whole.value : Int) else m.whole.value := by
  rcases Int.eq_nat_or_neg n with ⟨k, rfl | rfl⟩
  · refine ⟨⟨false, .ofNat k, Nat.toDigits_ne_nil, none, none⟩, ?_, rfl, rfl, ?_⟩
    · rw [Environment.toList_toString_natCast]
      simp [Numeral.chars, Numeral.fractionChars, Numeral.exponentChars, Digits.ofNat]
    · simp
  · rcases Nat.eq_zero_or_pos k with rfl | hk
    · exact ⟨⟨false, .ofNat 0, by decide, none, none⟩, by decide, rfl, rfl, by simp⟩
    · refine ⟨⟨true, .ofNat k, Nat.toDigits_ne_nil, none, none⟩, ?_, rfl, rfl, ?_⟩
      · rw [Environment.toList_toString_neg hk]
        simp [Numeral.chars, Numeral.fractionChars, Numeral.exponentChars, Digits.ofNat]
      · simp

namespace Decimal

open Json

variable (d : Decimal)

/-- The numeral is that of the decimal: it has its sign, a point or an exponent, and a magnitude
that is equal to its own. -/
structure IsWrittenAs (m : Numeral) : Prop where
  /-- The same sign. -/
  negative : m.negative = d.negative
  /-- It is not the numeral of an integer. -/
  marked : m.fraction = none → m.exponent ≠ none
  /-- An equal magnitude. -/
  magnitude : d.HasMagnitude m.significand m.power

theorem digitText_eq : d.digitText = (Digits.ofNat d.digits).chars := by
  rw [digitText, Nat.toString_eq_repr, Nat.toList_repr, Digits.ofNat]

theorem toList_sign : d.sign.toList = if d.negative then ['-'] else [] := by
  cases h : d.negative <;> simp [sign, h]

/-- The numeral of given digits before and behind the point is that of the decimal if together they
are its digits with zeros appended, and as many stand behind the point. -/
theorem isWrittenAs_pointed {whole places : Digits} (hne : whole.chars ≠ []) {count : Nat}
    (hvalue : (whole.append places).value = d.digits * 10 ^ count)
    (hlength : (places.chars.length : Int) = count - d.exponent) :
    d.IsWrittenAs ⟨d.negative, whole, hne, some places, none⟩ := by
  refine ⟨rfl, nofun, count, hvalue, ?_⟩
  simp only [Numeral.power, Numeral.exponentValue, Numeral.places, Option.getD_some]
  omega

/-- The digits before and behind the point are those of the decimal, with zeros before them that do
not count or zeros behind them that stand for a positive exponent. -/
theorem exists_positionalParts : ∃ (whole places : Digits) (count : Nat),
    d.positionalParts = (whole.chars, places.chars) ∧ whole.chars ≠ [] ∧
      (whole.append places).value = d.digits * 10 ^ count ∧
      (places.chars.length : Int) = count - d.exponent := by
  let ds := Digits.ofNat d.digits
  have hposition : d.pointPosition = ds.chars.length + d.exponent := by
    rw [pointPosition, digitText_eq]
  by_cases hexponent : 0 ≤ d.exponent
  -- Nothing stands behind the point, and zeros before it stand for the exponent.
  · refine ⟨ds.append (.zeros d.exponent.toNat), .zeros 0, d.exponent.toNat, ?_, ?_, ?_, ?_⟩
    · simp only [positionalParts, digitText_eq, hexponent, if_true]
      rfl
    · exact List.append_ne_nil_of_left_ne_nil (Digits.chars_ofNat_ne_nil _) _
    · rw [Digits.value_append_zeros, Digits.value_append_zeros, Digits.value_ofNat, Nat.pow_zero,
        Nat.mul_one]
    · simp only [Digits.chars_zeros, List.length_replicate]
      omega
  · by_cases hpoint : 0 < d.pointPosition
    -- The point stands among the digits.
    · refine ⟨ds.take d.pointPosition.toNat, ds.drop d.pointPosition.toNat, 0, ?_, ?_, ?_, ?_⟩
      · simp only [positionalParts, digitText_eq, hexponent, hpoint, if_false, if_true]
        rfl
      · simp only [Digits.chars_take, ne_eq, List.take_eq_nil_iff, not_or]
        exact ⟨by omega, Digits.chars_ofNat_ne_nil _⟩
      · rw [Digits.take_append_drop, Digits.value_ofNat, Nat.pow_zero, Nat.mul_one]
      · simp only [Digits.chars_drop, List.length_drop]
        omega
    -- It stands before all of them, and zeros between do not count.
    · refine ⟨.zeros 1, (Digits.zeros (-d.pointPosition).toNat).append ds, 0, ?_,
        List.cons_ne_nil _ _, ?_, ?_⟩
      · simp only [positionalParts, digitText_eq, hexponent, hpoint, if_false]
        rfl
      · rw [Digits.value_zeros_append, Digits.value_zeros_append, Digits.value_ofNat, Nat.pow_zero,
          Nat.mul_one]
      · simp only [Digits.chars_append, Digits.chars_zeros, List.length_append,
          List.length_replicate]
        omega

/-- In positional notation a zero stands behind the point if nothing else does. -/
theorem exists_numeral_pointed : ∃ m : Numeral, d.pointed.toList = m.chars ∧ d.IsWrittenAs m := by
  obtain ⟨whole, places, count, hparts, hne, hvalue, hlength⟩ := d.exists_positionalParts
  have htext : d.pointed.toList = (if d.negative then ['-'] else []) ++ whole.chars ++
      '.' :: (if places.chars.isEmpty then ['0'] else places.chars) := by
    simp [pointed, hparts, toList_sign]
  have hchars (behind : Digits) :
      (Numeral.mk d.negative whole hne (some behind) none).chars =
        (if d.negative then ['-'] else []) ++ whole.chars ++ '.' :: behind.chars := by
    simp [Numeral.chars, Numeral.fractionChars, Numeral.exponentChars]
  cases hplaces : places.chars with
  | nil =>
    have hwhole : whole.append places = whole := Digits.ext (by simp [hplaces])
    have hpadded : (whole.append (.zeros 1)).value = d.digits * 10 ^ (count + 1) := by
      rw [hwhole] at hvalue
      rw [Digits.value_append_zeros, hvalue, Nat.pow_one, Nat.mul_assoc, Nat.pow_succ]
    refine ⟨_, ?_, d.isWrittenAs_pointed hne hpadded ?_⟩
    · rw [htext, hplaces, hchars]
      rfl
    · rw [hplaces] at hlength
      simp only [List.length_nil, Digits.chars_zeros, List.length_replicate] at hlength ⊢
      omega
  | cons c cs =>
    refine ⟨_, ?_, d.isWrittenAs_pointed hne hvalue hlength⟩
    rw [htext, hchars, hplaces]
    rfl

/-- An exponent is written with its sign. -/
theorem exists_exponent (power : Int) : ∃ exponent : Bool × Digits,
    ((if power < 0 then "e-" else "e+") ++ toString power.natAbs).toList =
      Numeral.exponentChars (some exponent) ∧ Numeral.exponentValue (some exponent) = power := by
  have htext (mark : String) : (mark ++ toString power.natAbs).toList =
      mark.toList ++ (Digits.ofNat power.natAbs).chars := by
    rw [String.toList_append, Nat.toString_eq_repr, Nat.toList_repr, Digits.ofNat]
  by_cases hnegative : power < 0
  · refine ⟨(true, .ofNat power.natAbs), ?_, ?_⟩
    · rw [if_pos hnegative, htext]
      rfl
    · rw [Numeral.exponentValue, Digits.value_ofNat]
      omega
  · refine ⟨(false, .ofNat power.natAbs), ?_, ?_⟩
    · rw [if_neg hnegative, htext]
      rfl
    · rw [Numeral.exponentValue, Digits.value_ofNat]
      omega

/-- In scientific notation all digits but the first stand behind the point, which is left out if
there is only one. -/
theorem exists_numeral_scientific :
    ∃ m : Numeral, d.scientific.toList = m.chars ∧ d.IsWrittenAs m := by
  let ds := Digits.ofNat d.digits
  have hposition : d.pointPosition = ds.chars.length + d.exponent := by
    rw [pointPosition, digitText_eq]
  obtain ⟨exponent, hexponent, hpower⟩ := exists_exponent (d.pointPosition - 1)
  obtain ⟨c, cs, hcs⟩ := List.exists_cons_of_ne_nil (Digits.chars_ofNat_ne_nil d.digits)
  have hne : (ds.take 1).chars ≠ [] := by simp [ds, hcs]
  cases cs with
  | nil =>
    refine ⟨⟨d.negative, _, hne, none, some exponent⟩, ?_, rfl, nofun, 0, ?_, ?_⟩
    · simp only [scientific, digitText_eq, hcs, String.toList_append, hexponent, toList_sign]
      simp [Numeral.chars, Numeral.fractionChars, ds, hcs]
    · have hwhole : (ds.take 1).append (.zeros 0) = ds := Digits.ext (by simp [ds, hcs])
      simp only [Numeral.significand, Numeral.places, Option.getD_none, hwhole]
      rw [Digits.value_ofNat, Nat.pow_zero, Nat.mul_one]
    · have hone : ds.chars.length = 1 := by simp [ds, hcs]
      simp only [Numeral.power, hpower, Numeral.places, Option.getD_none, Digits.chars_zeros,
        List.length_replicate]
      omega
  | cons b bs =>
    refine ⟨⟨d.negative, _, hne, some (ds.drop 1), some exponent⟩, ?_, rfl, nofun, 0, ?_, ?_⟩
    · simp only [scientific, digitText_eq, hcs, String.toList_append, hexponent, toList_sign]
      simp [Numeral.chars, Numeral.fractionChars, ds, hcs]
    · simp only [Numeral.significand, Numeral.places, Option.getD_some, Digits.take_append_drop]
      rw [Digits.value_ofNat, Nat.pow_zero, Nat.mul_one]
    · have htwo : 2 ≤ ds.chars.length := by simp [ds, hcs]
      simp only [Numeral.power, hpower, Numeral.places, Option.getD_some, Digits.chars_drop,
        List.length_drop]
      omega

/-- **A decimal is written as a numeral of its own.** -/
theorem exists_numeral_realText :
    ∃ m : Numeral, (realText d).toList = m.chars ∧ d.IsWrittenAs m := by
  unfold realText
  split
  · exact d.exists_numeral_pointed
  · exact d.exists_numeral_scientific

end Decimal

section

variable {r s : List Char} (hr : EndsNumeral r) (hs : EndsNumeral s)
include hr hs

theorem integerText_append_inj {m n : Int}
    (h : (toString m).toList ++ r = (toString n).toList ++ s) : m = n ∧ r = s := by
  obtain ⟨p, hp, -, -, hm⟩ := exists_numeral_integer m
  obtain ⟨q, hq, -, -, hn⟩ := exists_numeral_integer n
  rw [hp, hq] at h
  obtain ⟨rfl, hrest⟩ := Numeral.chars_append_inj hr hs h
  exact ⟨hm.trans hn.symm, hrest⟩

/-- **Reduced decimals are told by their texts.** -/
theorem realText_append_inj {d e : Decimal} (hd : d.IsReduced) (he : e.IsReduced)
    (h : (Json.realText d).toList ++ r = (Json.realText e).toList ++ s) : d = e ∧ r = s := by
  obtain ⟨p, hp, hdp⟩ := d.exists_numeral_realText
  obtain ⟨q, hq, heq⟩ := e.exists_numeral_realText
  rw [hp, hq] at h
  obtain ⟨rfl, hrest⟩ := Numeral.chars_append_inj hr hs h
  exact ⟨hd.eq he (hdp.negative.symm.trans heq.negative) hdp.magnitude heq.magnitude, hrest⟩

/-- No integer is written like a decimal. -/
theorem integerText_append_ne_realText (n : Int) (d : Decimal) :
    (toString n).toList ++ r ≠ (Json.realText d).toList ++ s := by
  obtain ⟨p, hp, hfraction, hexponent, -⟩ := exists_numeral_integer n
  obtain ⟨q, hq, hdq⟩ := d.exists_numeral_realText
  intro h
  rw [hp, hq] at h
  obtain ⟨rfl, -⟩ := Numeral.chars_append_inj hr hs h
  exact hdq.marked hfraction hexponent

end

end EntityTypings
