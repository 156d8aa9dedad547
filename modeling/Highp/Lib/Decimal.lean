import Mathlib.Algebra.Order.Field.Rat
import Mathlib.Data.List.DropRight
import Mathlib.Tactic.FieldSimp
import Mathlib.Tactic.Linarith
import Mathlib.Tactic.Positivity
import Mathlib.Tactic.Ring

/-! Decimal numerals: the numbers that they stand for, as the grammar of JSON has them. -/

namespace Highp.Lib.Decimal

def isDigits (text : List Char) : Bool := !text.isEmpty && text.all Char.isDigit

/-- Digits without a needless zero in front. -/
def isWhole (text : List Char) : Bool :=
  isDigits text && (text.head? != some '0' || text.length == 1)

/-- A numeral without a sign; the fraction is optional. -/
def unsigned (text : List Char) : Option Rat :=
  match text.span (· != '.') with
  | (whole, []) => if isWhole whole then some (Nat.ofDigitChars 10 whole 0 : Rat) else none
  | (whole, _ :: fraction) =>
    if isWhole whole && isDigits fraction then
      some ((Nat.ofDigitChars 10 whole 0 : Rat) +
        (Nat.ofDigitChars 10 fraction 0 : Rat) / 10 ^ fraction.length)
    else none

/-- `none` if the text is no numeral. -/
def value : List Char → Option Rat
  | '-' :: text => (unsigned text).map (- ·)
  | text => unsigned text

/-! ## Whole numbers -/

theorem head_toDigits {n : Nat} (h : n ≠ 0) : (Nat.toDigits 10 n).head? ≠ some '0' := by
  induction n using Nat.strong_induction_on with
  | _ n ih =>
    by_cases hlt : n < 10
    · have hdigit : ∀ m < 10, m ≠ 0 → [Nat.digitChar m].head? ≠ some '0' := by decide
      rw [Nat.toDigits_of_lt_base hlt]
      exact hdigit n hlt h
    · have hge : 10 ≤ n := Nat.le_of_not_lt hlt
      rw [Nat.toDigits_of_base_le (by decide) hge, List.head?_append]
      have hfront := ih (n / 10) (by omega) (by omega)
      cases hd : (Nat.toDigits 10 (n / 10)).head? with
      | none => exact absurd (List.head?_eq_none_iff.mp hd) Nat.toDigits_ne_nil
      | some ch => simpa [hd] using hfront

theorem isDigits_toDigits (n : Nat) : isDigits (Nat.toDigits 10 n) = true := by
  have hall : (Nat.toDigits 10 n).all Char.isDigit = true := List.all_eq_true.mpr fun ch hch =>
    Nat.isDigit_of_mem_toDigits (by decide) (by decide) hch
  simp [isDigits, hall, Nat.toDigits_ne_nil]

theorem isWhole_toDigits (n : Nat) : isWhole (Nat.toDigits 10 n) = true := by
  rw [isWhole, isDigits_toDigits, Bool.true_and]
  by_cases h : n = 0
  · subst h
    rfl
  · simp [head_toDigits h]

theorem ne_dot_of_isDigits {text : List Char} (h : isDigits text = true) : ∀ ch ∈ text,
    (ch != '.') = true := by
  intro ch hch
  have hdigit : ch.isDigit = true := by
    rw [isDigits, Bool.and_eq_true] at h
    exact List.all_eq_true.mp h.2 ch hch
  rw [bne_iff_ne]
  rintro rfl
  cases hdigit

theorem unsigned_whole {text : List Char} (h : isWhole text = true) :
    unsigned text = some (Nat.ofDigitChars 10 text 0 : Rat) := by
  have hdigits : isDigits text = true := (Bool.and_eq_true _ _ ▸ h).1
  have hspan : text.span (· != '.') = (text, []) := by
    have hne := ne_dot_of_isDigits hdigits
    rw [List.span_eq_takeWhile_dropWhile, List.takeWhile_eq_self_iff.mpr hne,
      List.dropWhile_eq_nil_iff.mpr hne]
  rw [unsigned, hspan]
  exact if_pos h

theorem unsigned_fraction {whole fraction : List Char} (h : isWhole whole = true)
    (hfraction : isDigits fraction = true) : unsigned (whole ++ '.' :: fraction) =
      some ((Nat.ofDigitChars 10 whole 0 : Rat) +
        (Nat.ofDigitChars 10 fraction 0 : Rat) / 10 ^ fraction.length) := by
  have hdigits : isDigits whole = true := (Bool.and_eq_true _ _ ▸ h).1
  have hspan : (whole ++ '.' :: fraction).span (· != '.') = (whole, '.' :: fraction) := by
    rw [List.span_eq_takeWhile_dropWhile,
      List.takeWhile_append_of_pos (ne_dot_of_isDigits hdigits),
      List.dropWhile_append_of_pos (ne_dot_of_isDigits hdigits)]
    simp
  rw [unsigned, hspan]
  simp [h, hfraction]

theorem unsigned_minus (text : List Char) : unsigned ('-' :: text) = none := by
  have hwhole : ∀ whole, isWhole ('-' :: whole) = false := by
    intro whole
    rw [isWhole, isDigits]
    simp
  unfold unsigned
  rw [List.span_eq_takeWhile_dropWhile, List.takeWhile_cons_of_pos (by decide)]
  split
  · rename_i heq
    rw [← (Prod.mk.inj heq).1, hwhole, if_neg (by simp)]
  · rename_i heq
    rw [← (Prod.mk.inj heq).1, hwhole, Bool.false_and, if_neg (by simp)]

theorem value_of_unsigned {text : List Char} {q : Rat} (h : unsigned text = some q) :
    value text = some q := by
  unfold value
  split
  · rw [unsigned_minus] at h
    cases h
  · exact h

theorem unsigned_toDigits (n : Nat) : unsigned (Nat.toDigits 10 n) = some (n : Rat) := by
  rw [unsigned_whole (isWhole_toDigits n), Nat.ofDigitChars_ten_toDigits]

theorem value_toDigits (n : Nat) : value (Nat.toDigits 10 n) = some (n : Rat) :=
  value_of_unsigned (unsigned_toDigits n)

/-! ## Trailing zeros -/

/-- A numeral without the zeros at its end, and without the dot if nothing follows it. -/
def strip (text : List Char) : List Char :=
  let text := text.rdropWhile (· == '0')
  if text.getLast? = some '.' then text.dropLast else text

theorem rdropWhile_append_cons {p : Char → Bool} {c : Char} (h : p c = false)
    (front back : List Char) :
    (front ++ c :: back).rdropWhile p = front ++ c :: back.rdropWhile p := by
  induction back using List.reverseRecOn with
  | nil =>
    rw [List.rdropWhile_concat_neg _ _ _ (by simp [h])]
    rfl
  | append_singleton back last ih =>
    have hassoc : front ++ c :: (back ++ [last]) = front ++ c :: back ++ [last] := by simp
    rw [hassoc, List.rdropWhile_concat, List.rdropWhile_concat]
    by_cases hlast : p last = true
    · rw [if_pos hlast, if_pos hlast, ih]
    · rw [if_neg hlast, if_neg hlast, hassoc]

/-- What stands in front of the dot and the digits is not touched. -/
theorem strip_append (front whole fraction : List Char) :
    strip (front ++ (whole ++ '.' :: fraction)) = front ++ strip (whole ++ '.' :: fraction) := by
  have hdrop := rdropWhile_append_cons (p := (· == '0')) (c := '.') rfl
  rw [strip, strip, ← List.append_assoc, hdrop, hdrop, List.append_assoc,
    List.getLast?_append_of_ne_nil _ (by simp), List.dropLast_append_of_ne_nil (by simp)]
  split <;> rfl

/-- What stands behind the dot. -/
def fractionOf (text : List Char) : Rat := (Nat.ofDigitChars 10 text 0 : Rat) / 10 ^ text.length

theorem fractionOf_rdropWhile (text : List Char) :
    fractionOf (text.rdropWhile (· == '0')) = fractionOf text := by
  induction text using List.reverseRecOn with
  | nil => rfl
  | append_singleton text ch ih =>
    rw [List.rdropWhile_concat]
    by_cases hch : (ch == '0') = true
    · obtain rfl : ch = '0' := by simpa using hch
      rw [if_pos hch, ih, fractionOf, fractionOf, Nat.ofDigitChars_append, List.length_append]
      simp only [Nat.ofDigitChars_cons, Nat.ofDigitChars_nil, List.length_singleton, pow_succ]
      push_cast
      field_simp
      simp
    · rw [if_neg hch]

theorem isDigits_rdropWhile {text : List Char} (h : isDigits text = true)
    (hne : text.rdropWhile (· == '0') ≠ []) :
    isDigits (text.rdropWhile (· == '0')) = true := by
  rw [isDigits, Bool.and_eq_true] at h ⊢
  refine ⟨by simpa using hne, List.all_eq_true.mpr fun ch hch => ?_⟩
  exact List.all_eq_true.mp h.2 ch ((List.rdropWhile_prefix _ text).subset hch)

/-- Zeros at the end make no difference. -/
theorem unsigned_strip {whole fraction : List Char} (h : isWhole whole = true)
    (hfraction : isDigits fraction = true) : unsigned (strip (whole ++ '.' :: fraction)) =
      some ((Nat.ofDigitChars 10 whole 0 : Rat) + fractionOf fraction) := by
  have hdrop := rdropWhile_append_cons (p := (· == '0')) (c := '.') rfl whole fraction
  rw [strip, hdrop, ← fractionOf_rdropWhile fraction]
  by_cases hnil : fraction.rdropWhile (· == '0') = []
  · have hlast : (whole ++ ['.']).getLast? = some '.' := by simp
    rw [hnil, if_pos hlast, List.dropLast_concat, unsigned_whole h]
    simp [fractionOf]
  · have hdigits := isDigits_rdropWhile hfraction hnil
    have hlast : (whole ++ '.' :: fraction.rdropWhile (· == '0')).getLast? ≠ some '.' := by
      intro hdot
      rw [List.getLast?_append_of_ne_nil _ (by simp), List.getLast?_cons_of_ne_nil hnil] at hdot
      have hm := List.mem_of_getLast? hdot
      exact absurd (ne_dot_of_isDigits hdigits '.' hm) (by decide)
    rw [if_neg hlast, unsigned_fraction h hdigits]
    rfl

/-! ## Rounding -/

/-- The thousandths nearest to a quotient. -/
theorem abs_thousandths_sub {a d : Nat} (hd : 0 < d) :
    |(((a * 10 ^ 3 * 2 + d) / (d * 2) : Nat) : Rat) / 1000 - (a : Rat) / d| ≤ 1 / 2000 := by
  have hdiv := Nat.div_add_mod (a * 10 ^ 3 * 2 + d) (d * 2)
  have hmod : (a * 10 ^ 3 * 2 + d) % (d * 2) < d * 2 := Nat.mod_lt _ (by omega)
  generalize (a * 10 ^ 3 * 2 + d) / (d * 2) = n at hdiv ⊢
  generalize (a * 10 ^ 3 * 2 + d) % (d * 2) = m at hdiv hmod
  have hpos : (0 : Rat) < d := by exact_mod_cast hd
  have hsum : (d : Rat) * 2 * n + m = a * 10 ^ 3 * 2 + d := by exact_mod_cast hdiv
  have hm : (m : Rat) / d ≤ 2 := by
    rw [div_le_iff₀ hpos]
    have hle : (m : Rat) ≤ d * 2 := by exact_mod_cast hmod.le
    linarith
  have hm0 : (0 : Rat) ≤ (m : Rat) / d := by positivity
  have hsplit : 2 * (n : Rat) + m / d = 2000 * (a / d) + 1 := by
    field_simp
    linarith
  rw [abs_le]
  constructor <;> linarith

end Highp.Lib.Decimal
