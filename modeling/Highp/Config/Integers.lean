import Highp.Config.Toml
import Mathlib.Data.Nat.Digits.Defs

/-! The integers of the settings. The machine's arithmetic is compared with the numbers that the
digits stand for. -/

namespace Highp.Config

/-! ## What is written -/

def digit (c : Char) : Nat := c.toNat - '0'.toNat

/-- The number that some digits stand for. -/
def decimal (digits : List Char) : Nat := Nat.ofDigits 10 (digits.reverse.map digit)

/-- The trimmed text is an optional sign and some digits, and stands for this number. -/
def Numeral (str : List Char) (n : Int) : Prop :=
  ∃ sign digits, trim str = sign ++ digits ∧ (sign = [] ∨ sign = ['+'] ∨ sign = ['-']) ∧
    digits ≠ [] ∧ (∀ c ∈ digits, isDigit c = true) ∧
    n = if sign = ['-'] then -(decimal digits : Int) else decimal digits

/-- A number that a signed integer of so many bits can hold. -/
def Fits (bits : Nat) (n : Int) : Prop := -2 ^ (bits - 1) ≤ n ∧ n < 2 ^ (bits - 1)

/-- What is behind the sign. -/
def unsigned (str : List Char) : List Char :=
  match trim str with
  | [] => []
  | c :: cs => if c == '-' || c == '+' then cs else c :: cs

def negative (str : List Char) : Bool := (trim str).head? == some '-'

/-! ## What is computed -/

/-- The results of the products and sums of the loop, before they are cut to the width. -/
def digitResults (bits : Nat) : Int → List Char → List Int
  | _, [] => []
  | result, c :: cs =>
    if !isDigit c then []
    else result * 10 :: (wrap bits (result * 10) + digit c) ::
      digitResults bits (wrap bits (result * 10 + digit c)) cs

/-- All results of `ParseInt` and `ParseLong`, with the negation at the end. -/
def numberResults (bits : Nat) (str : List Char) : List Int :=
  digitResults bits 0 (unsigned str) ++
    if unsigned str ≠ [] ∧ negative str then
      ((parseDigits bits 0 (unsigned str)).map fun result => -result).toList
    else []

/-- The number that is written is the result, if it fits, and nothing on the way leaves the
range. -/
def ParsedExactly (bits : Nat) (parsed : Option Int) (str : List Char) : Prop :=
  (∀ n, parsed = some n ↔ Numeral str n ∧ Fits bits n) ∧
    ∀ result ∈ numberResults bits str, Fits bits result

/-! ## Digits -/

theorem decimal_concat (digits : List Char) (c : Char) :
    decimal (digits ++ [c]) = decimal digits * 10 + digit c := by
  rw [decimal, List.reverse_concat, List.map_cons, Nat.ofDigits_cons]
  simp only [decimal]
  omega

theorem decimal_next (digits : List Char) (c : Char) :
    (decimal digits : Int) * 10 + (digit c : Nat) = (decimal (digits ++ [c]) : Nat) := by
  rw [decimal_concat]
  push_cast
  rfl

theorem decimal_le_append (front digits : List Char) :
    decimal front ≤ decimal (front ++ digits) := by
  induction digits using List.reverseRecOn with
  | nil => rw [List.append_nil]
  | append_singleton digits c ih =>
    rw [← List.append_assoc, decimal_concat]
    omega

theorem wrap_fits {bits : Nat} (hbits : 0 < bits) {n : Int} (h : Fits bits n) :
    wrap bits n = n := by
  have hpow : (2 : Int) ^ bits = 2 * 2 ^ (bits - 1) := by
    rw [← pow_succ', Nat.sub_add_cancel hbits]
  unfold Fits at h
  exact Int.bmod_eq_of_le_mul_two (by push_cast; omega) (by push_cast; omega)

theorem fits_nat {bits n : Nat} : Fits bits (n : Int) ↔ n < 2 ^ (bits - 1) := by
  have hcast : ((2 ^ (bits - 1) : Nat) : Int) = 2 ^ (bits - 1) := by push_cast; rfl
  have hpos : 0 < 2 ^ (bits - 1) := by positivity
  unfold Fits
  omega

/-- The negation of a number that is not negative. -/
theorem fits_neg {bits n : Nat} (h : n < 2 ^ (bits - 1)) : Fits bits (-(n : Int)) := by
  have hcast : ((2 ^ (bits - 1) : Nat) : Int) = 2 ^ (bits - 1) := by push_cast; rfl
  unfold Fits
  omega

/-! ## The loop -/

/-- Nothing leaves the range as long as the digits stand for a number of the range. -/
theorem digitResults_fit {bits : Nat} (hbits : 0 < bits) (digits : List Char) :
    ∀ front, decimal front < 2 ^ (bits - 1) →
      ((∀ result ∈ digitResults bits (decimal front) digits, Fits bits result) ↔
        decimal (front ++ digits.takeWhile isDigit) < 2 ^ (bits - 1)) := by
  induction digits with
  | nil =>
    intro front hfront
    simpa [digitResults] using hfront
  | cons c digits ih =>
    intro front hfront
    cases hc : isDigit c with
    | false => simpa [digitResults, hc] using hfront
    | true =>
      have happend : front ++ (c :: digits).takeWhile isDigit =
          (front ++ [c]) ++ digits.takeWhile isDigit := by
        rw [List.takeWhile_cons_of_pos hc, List.append_assoc, List.singleton_append]
      have hcast := decimal_next front c
      have hten : (decimal front : Int) * 10 = (decimal front * 10 : Nat) := by
        push_cast
        rfl
      have hstep := decimal_concat front c
      rw [happend]
      by_cases hnext : decimal (front ++ [c]) < 2 ^ (bits - 1)
      · have hproduct : Fits bits ((decimal front : Int) * 10) := by
          rw [hten, fits_nat]
          omega
        have hsum : Fits bits ((decimal front : Int) * 10 + (digit c : Nat)) := by
          rw [hcast, fits_nat]
          exact hnext
        rw [← ih (front ++ [c]) hnext, digitResults]
        simp only [hc, Bool.not_true, Bool.false_eq_true, if_false, List.mem_cons, forall_eq_or_imp,
          wrap_fits hbits hproduct, wrap_fits hbits hsum, hproduct, hsum, true_and]
        rw [hcast]
      · -- the sum or the product before it leaves the range
        have hover : ¬ decimal ((front ++ [c]) ++ digits.takeWhile isDigit) < 2 ^ (bits - 1) := by
          have := decimal_le_append (front ++ [c]) (digits.takeWhile isDigit)
          omega
        refine ⟨fun h => ?_, fun h => absurd h hover⟩
        exfalso
        rw [digitResults] at h
        simp only [hc, Bool.not_true, Bool.false_eq_true, if_false, List.mem_cons,
          forall_eq_or_imp] at h
        obtain ⟨hproduct, hsum, -⟩ := h
        rw [wrap_fits hbits hproduct, hcast, fits_nat] at hsum
        exact hnext hsum

/-- The loop has the number that the digits stand for. -/
theorem parseDigits_fits {bits : Nat} (hbits : 0 < bits) {digits : List Char}
    (hdigits : ∀ c ∈ digits, isDigit c = true) :
    ∀ front, decimal (front ++ digits) < 2 ^ (bits - 1) →
      parseDigits bits (decimal front) digits = some (decimal (front ++ digits) : Int) := by
  induction digits with
  | nil =>
    intro front _
    rw [List.append_nil]
    rfl
  | cons c digits ih =>
    intro front hfits
    have hc := hdigits c (List.mem_cons_self ..)
    have happend : front ++ c :: digits = (front ++ [c]) ++ digits := by simp
    rw [happend] at hfits ⊢
    have hnext : decimal (front ++ [c]) < 2 ^ (bits - 1) := by
      have := decimal_le_append (front ++ [c]) digits
      omega
    have hcast := decimal_next front c
    have hwrap : wrap bits ((decimal front : Int) * 10 + (c.toNat - '0'.toNat : Nat)) =
        (decimal (front ++ [c]) : Nat) := by
      have hsum : wrap bits ((decimal front : Int) * 10 + (digit c : Nat)) =
          (decimal front : Int) * 10 + (digit c : Nat) :=
        wrap_fits hbits (by rw [hcast, fits_nat]; exact hnext)
      rw [← hcast]
      exact hsum
    rw [parseDigits]
    simp only [hc, Bool.not_true, Bool.false_eq_true, if_false, hwrap]
    exact ih (fun d hd => hdigits d (List.mem_cons_of_mem _ hd)) (front ++ [c]) hfits

/-- Something that is no digit ends the loop with nothing. -/
theorem parseDigits_none {bits : Nat} {digits : List Char} {c : Char} (hmem : c ∈ digits)
    (hc : isDigit c = false) (result : Int) : parseDigits bits result digits = none := by
  induction digits generalizing result with
  | nil => cases hmem
  | cons d digits ih =>
    cases hd : isDigit d with
    | false => simp [parseDigits, hd]
    | true =>
      rcases List.mem_cons.mp hmem with rfl | hmem
      · rw [hc] at hd
        cases hd
      · simp [parseDigits, hd, ih hmem]

/-! ## Sign and digits -/

theorem parseNumber_eq (bits : Nat) (str : List Char) :
    parseNumber bits str =
      if unsigned str = [] then none
      else (parseDigits bits 0 (unsigned str)).map fun result =>
        if negative str then wrap bits (-result) else result := by
  unfold parseNumber unsigned negative
  cases trim str with
  | nil => rfl
  | cons c cs => rfl

/-- A numeral is cut in one way only. -/
theorem numeral_iff (str : List Char) (n : Int) :
    Numeral str n ↔ unsigned str ≠ [] ∧ (∀ c ∈ unsigned str, isDigit c = true) ∧
      n = if negative str then -(decimal (unsigned str) : Int) else decimal (unsigned str) := by
  constructor
  · rintro ⟨sign, digits, htrim, hsign, hne, hdigits, hn⟩
    obtain rfl | rfl | rfl := hsign
    · obtain ⟨c, cs, rfl⟩ := List.exists_cons_of_ne_nil hne
      have hc := hdigits c (List.mem_cons_self ..)
      have hminus : c ≠ '-' := by
        rintro rfl
        exact absurd hc (by decide)
      have hplus : c ≠ '+' := by
        rintro rfl
        exact absurd hc (by decide)
      have hunsigned : unsigned str = c :: cs := by
        simp [unsigned, htrim, hminus, hplus]
      have hnegative : negative str = false := by
        simp [negative, htrim, hminus]
      rw [hunsigned, hnegative]
      exact ⟨hne, hdigits, hn⟩
    · have hunsigned : unsigned str = digits := by simp [unsigned, htrim]
      have hnegative : negative str = false := by simp [negative, htrim]
      rw [hunsigned, hnegative]
      exact ⟨hne, hdigits, hn⟩
    · have hunsigned : unsigned str = digits := by simp [unsigned, htrim]
      have hnegative : negative str = true := by simp [negative, htrim]
      rw [hunsigned, hnegative]
      exact ⟨hne, hdigits, hn⟩
  · rintro ⟨hne, hdigits, hn⟩
    unfold unsigned at hne hdigits hn
    unfold negative at hn
    cases htrim : trim str with
    | nil => exact absurd (by rw [htrim]) hne
    | cons c cs =>
      rw [htrim] at hne hdigits hn
      by_cases hminus : c = '-'
      · subst hminus
        exact ⟨['-'], cs, htrim, .inr (.inr rfl), hne, hdigits, hn⟩
      · by_cases hplus : c = '+'
        · subst hplus
          exact ⟨['+'], cs, htrim, .inr (.inl rfl), hne, hdigits, hn⟩
        · have hsign : ¬ (c == '-' || c == '+') = true := by simp [hminus, hplus]
          simp only [if_neg hsign] at hne hdigits hn
          have hnegative : ((c :: cs).head? == some '-') = false := by simp [hminus]
          rw [hnegative] at hn
          exact ⟨[], c :: cs, htrim, .inl rfl, hne, hdigits, hn⟩

theorem takeWhile_digits {digits : List Char} (h : ∀ c ∈ digits, isDigit c = true) :
    digits.takeWhile isDigit = digits :=
  List.takeWhile_eq_self_iff.mpr h

/-- With digits that stand for a number of the range the result is exact. -/
theorem parsed_exactly {bits : Nat} (hbits : 0 < bits) {str : List Char}
    (h : decimal ((unsigned str).takeWhile isDigit) < 2 ^ (bits - 1)) (n : Int) :
    parseNumber bits str = some n ↔ Numeral str n ∧ Fits bits n := by
  rw [parseNumber_eq, numeral_iff]
  by_cases hne : unsigned str = []
  · simp [hne]
  rw [if_neg hne]
  by_cases hdigits : ∀ c ∈ unsigned str, isDigit c = true
  · rw [takeWhile_digits hdigits] at h
    have hloop : parseDigits bits 0 (unsigned str) = some (decimal (unsigned str) : Int) :=
      parseDigits_fits hbits hdigits [] h
    rw [hloop, Option.map_some, Option.some.injEq]
    cases negative str with
    | true =>
      simp only [if_true, wrap_fits hbits (fits_neg h)]
      constructor
      · rintro rfl
        exact ⟨⟨hne, hdigits, rfl⟩, fits_neg h⟩
      · rintro ⟨⟨-, -, rfl⟩, -⟩
        rfl
    | false =>
      simp only [Bool.false_eq_true, if_false]
      constructor
      · rintro rfl
        exact ⟨⟨hne, hdigits, rfl⟩, fits_nat.mpr h⟩
      · rintro ⟨⟨-, -, rfl⟩, -⟩
        rfl
  · obtain ⟨c, hmem, hc⟩ : ∃ c ∈ unsigned str, isDigit c = false := by
      simpa using hdigits
    rw [parseDigits_none hmem hc, Option.map_none]
    constructor
    · intro hsome
      cases hsome
    · rintro ⟨⟨-, hall, -⟩, -⟩
      exact absurd hall hdigits

/-- The results of the loop and of the negation are in the range together. -/
theorem numberResults_fit {bits : Nat} (hbits : 0 < bits) (str : List Char) :
    (∀ result ∈ numberResults bits str, Fits bits result) ↔
      decimal ((unsigned str).takeWhile isDigit) < 2 ^ (bits - 1) := by
  have hloop := digitResults_fit hbits (unsigned str) [] (by
    show 0 < 2 ^ (bits - 1)
    positivity)
  rw [List.nil_append] at hloop
  unfold numberResults
  constructor
  · intro h
    exact hloop.mp fun result hmem => h result (List.mem_append_left _ hmem)
  · intro h result hmem
    rcases List.mem_append.mp hmem with hmem | hmem
    · exact hloop.mpr h result hmem
    · by_cases hneg : unsigned str ≠ [] ∧ negative str = true
      · rw [if_pos hneg, Option.mem_toList] at hmem
        obtain ⟨number, hnumber, rfl⟩ := Option.map_eq_some_iff.mp hmem
        by_cases hdigits : ∀ c ∈ unsigned str, isDigit c = true
        · rw [takeWhile_digits hdigits] at h
          have hexact : parseDigits bits 0 (unsigned str) = some (decimal (unsigned str) : Int) :=
            parseDigits_fits hbits hdigits [] h
          rw [hexact] at hnumber
          cases hnumber
          exact fits_neg h
        · obtain ⟨c, hmem, hc⟩ : ∃ c ∈ unsigned str, isDigit c = false := by
            simpa using hdigits
          rw [parseDigits_none hmem hc] at hnumber
          cases hnumber
      · rw [if_neg hneg] at hmem
        cases hmem

/-- **Integers are parsed exactly.** They are for every text whose digits behind the sign, as far
as they go, stand for a number of the positive range, and for no other. -/
theorem parsed_exactly_iff (str : List Char) :
    (ParsedExactly 32 (parseInt str) str ↔
        decimal ((unsigned str).takeWhile isDigit) < 2 ^ 31) ∧
      (ParsedExactly 32 (parseLong str) str ↔
        decimal ((unsigned str).takeWhile isDigit) < 2 ^ 31) ∧
      ∀ bits > 0, ParsedExactly bits (parseNumber bits str) str ↔
        decimal ((unsigned str).takeWhile isDigit) < 2 ^ (bits - 1) := by
  have hall : ∀ bits > 0, ParsedExactly bits (parseNumber bits str) str ↔
      decimal ((unsigned str).takeWhile isDigit) < 2 ^ (bits - 1) := by
    intro bits hbits
    constructor
    · exact fun h => (numberResults_fit hbits str).mp h.2
    · exact fun h => ⟨parsed_exactly hbits h, (numberResults_fit hbits str).mpr h⟩
  exact ⟨hall 32 (by decide), hall 32 (by decide), hall⟩

/-- The first number that is too large becomes the smallest one. -/
theorem large_integer_wraps :
    parseInt "2147483648".toList = some (-2147483648) ∧
      ¬ ParsedExactly 32 (parseInt "2147483648".toList) "2147483648".toList ∧
      ¬ ParsedExactly 32 (parseInt "-2147483648".toList) "-2147483648".toList := by
  have hparse : parseInt "2147483648".toList = some (-2147483648) := by decide
  refine ⟨hparse, fun h => ?_, fun h => ?_⟩
  · have hnumber := ((numeral_iff _ _).mp ((h.1 _).mp hparse).1).2.2
    exact absurd hnumber (by decide)
  · exact absurd (h.2 2147483648 (by decide)) (by unfold Fits; decide)

end Highp.Config
