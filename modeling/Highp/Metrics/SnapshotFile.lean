import Mathlib.Data.Nat.Digits.Defs
import Highp.Lib.Decimal
import Highp.Lib.JsonLines
import Highp.Metrics.Manifest
import Highp.Metrics.Reported
import Highp.Metrics.Restart

/-! The snapshot files of the two writers, and what a reader of JSON Lines finds in them. -/

namespace Highp.Metrics
open Highp.Lib

/-! ## Numbers -/

theorem digits_eq (n : Nat) : digits n = Nat.toDigits 10 n := Nat.toList_repr

theorem value_digits (n : Nat) : Decimal.value (digits n) = some (n : Rat) := by
  rw [digits_eq]
  exact Decimal.value_toDigits n

theorem value_signed (n : Int) : Decimal.value (signed n) = some (n : Rat) := by
  have h : signed n = n.repr.toList := rfl
  rw [h, Int.repr_eq_if]
  split
  · rename_i hneg
    have hnat : ((n.toNat : Nat) : Int) = n := by omega
    rw [Nat.toList_repr, Decimal.value_toDigits, ← Int.cast_natCast, hnat]
  · rename_i hneg
    have hnat : (((-n).toNat : Nat) : Int) = -n := by omega
    have hdigits := Decimal.unsigned_toDigits (-n).toNat
    rw [String.toList_append, Nat.toList_repr]
    change (Decimal.unsigned (Nat.toDigits 10 (-n).toNat)).map (- ·) = some (n : Rat)
    rw [hdigits, Option.map_some, ← Int.cast_natCast, hnat]
    simp

/-- So many thousandths: digits in front of the dot, and three behind it. -/
def thousandths (n : Nat) : Text := digits (n / 1000) ++ '.' :: padded 3 (digits (n % 1000))

theorem ofDigitChars_padded (width n : Nat) :
    Nat.ofDigitChars 10 (padded width (digits n)) 0 = n := by
  rw [padded, Nat.ofDigitChars_append, Nat.ofDigitChars_replicate_zero, Nat.mul_zero, digits_eq,
    Nat.ofDigitChars_ten_toDigits]

theorem length_padded {width n : Nat} (h : n < 10 ^ width) (hwidth : 0 < width) :
    (padded width (digits n)).length = width := by
  have hlength : (digits n).length ≤ width := by
    rw [digits_eq]
    exact Nat.toDigits_length 10 n width hwidth h
  rw [padded, List.length_append, List.length_replicate]
  omega

theorem isDigits_padded (width n : Nat) : Decimal.isDigits (padded width (digits n)) = true := by
  have hdigits := Decimal.isDigits_toDigits n
  rw [← digits_eq] at hdigits
  rw [Decimal.isDigits, Bool.and_eq_true] at hdigits ⊢
  refine ⟨by simpa [padded] using fun _ => hdigits.1, List.all_eq_true.mpr fun ch hch => ?_⟩
  rcases List.mem_append.mp hch with hch | hch
  · rw [List.eq_of_mem_replicate hch]
    rfl
  · exact List.all_eq_true.mp hdigits.2 ch hch

theorem unsigned_thousandths (n : Nat) :
    Decimal.unsigned (Decimal.strip (thousandths n)) = some ((n : Rat) / 1000) := by
  have hwhole := Decimal.isWhole_toDigits (n / 1000)
  rw [← digits_eq] at hwhole
  have hlength : (padded 3 (digits (n % 1000))).length = 3 :=
    length_padded (by omega) (by decide)
  rw [thousandths, Decimal.unsigned_strip hwhole (isDigits_padded 3 _), Decimal.fractionOf,
    ofDigitChars_padded, hlength, digits_eq, Nat.ofDigitChars_ten_toDigits]
  have hdiv : (n : Rat) = 1000 * (n / 1000 : Nat) + (n % 1000 : Nat) := by
    exact_mod_cast (Nat.div_add_mod n 1000).symm
  congr 1
  rw [hdiv]
  ring

/-- The thousandths nearest to a number, without its sign. -/
def roundedThousandths (x : Rat) : Nat := (x.num.natAbs * 10 ^ 3 * 2 + x.den) / (x.den * 2)

theorem fixed_eq (x : Rat) : Double.fixed x 3 =
    (if x.num < 0 then ['-'] else []) ++ thousandths (roundedThousandths x) := by
  change (if x.num < 0 then ['-'] else []) ++ digits (roundedThousandths x / 10 ^ 3) ++ ['.'] ++
    List.replicate (3 - (digits (roundedThousandths x % 10 ^ 3)).length) '0' ++
      digits (roundedThousandths x % 10 ^ 3) = _
  simp [thousandths, padded]

/-- The sign goes on in front. -/
theorem value_sign {text : Text} {q : Rat} (neg : Bool) (h : Decimal.unsigned text = some q) :
    Decimal.value ((if neg then ['-'] else []) ++ text) = some (if neg then -q else q) := by
  cases neg with
  | false => exact Decimal.value_of_unsigned h
  | true =>
    change (Decimal.unsigned text).map (- ·) = some (-q)
    rw [h, Option.map_some]

theorem abs_signed_sub (x : Rat) {r : Rat} :
    |(if x.num < 0 then -r else r) - x| = |r - (x.num.natAbs : Rat) / x.den| := by
  have hx : x = (x.num : Rat) / x.den := (Rat.num_div_den x).symm
  split
  · rename_i hneg
    have hnum : (x.num : Rat) = -(x.num.natAbs : Rat) := by
      have habs : x.num = -((x.num.natAbs : Nat) : Int) := by omega
      rw [← Int.cast_natCast, ← Int.cast_neg, ← habs]
    have hminus : x = -((x.num.natAbs : Rat) / x.den) := by
      rw [← neg_div, ← hnum]
      exact hx
    nth_rewrite 1 [hminus]
    rw [neg_sub_neg, abs_sub_comm]
  · rename_i hneg
    have hnum : (x.num : Rat) = (x.num.natAbs : Rat) := by
      have habs : x.num = ((x.num.natAbs : Nat) : Int) := by omega
      rw [← Int.cast_natCast, ← habs]
    rw [← hnum, ← hx]

theorem formatNumber_eq (x : Rat) :
    formatNumber x = if Decimal.strip (Double.fixed x 3) = ['-', '0'] then ['0'] else
      Decimal.strip (Double.fixed x 3) := by
  have hdot : '.' ∈ Double.fixed x 3 := by
    rw [fixed_eq, thousandths]
    simp
  have hshort : (if '.' ∈ Double.fixed x 3 then Decimal.strip (Double.fixed x 3)
      else Double.fixed x 3) = Decimal.strip (Double.fixed x 3) := if_pos hdot
  rw [← hshort]
  rfl

/-- A number is read back to half a thousandth. -/
theorem value_formatNumber (x : Rat) :
    ∃ q, Decimal.value (formatNumber x) = some q ∧ |q - x| ≤ 1 / 2000 := by
  have hstrip : Decimal.strip (Double.fixed x 3) = (if x.num < 0 then ['-'] else []) ++
      Decimal.strip (thousandths (roundedThousandths x)) := by
    rw [fixed_eq, thousandths, Decimal.strip_append]
  have hsign := value_sign (decide (x.num < 0)) (unsigned_thousandths (roundedThousandths x))
  simp only [decide_eq_true_eq] at hsign
  rw [← hstrip] at hsign
  have hnear : |(if x.num < 0 then -((roundedThousandths x : Rat) / 1000)
      else (roundedThousandths x : Rat) / 1000) - x| ≤ 1 / 2000 := by
    rw [abs_signed_sub]
    exact Decimal.abs_thousandths_sub x.den_pos
  refine ⟨_, ?_, hnear⟩
  rw [formatNumber_eq]
  split
  · rename_i hzero
    rw [hzero] at hsign
    rw [← hsign]
    decide +kernel
  · exact hsign

theorem mem_strip {text : Text} {ch : Char} (h : ch ∈ Decimal.strip text) : ch ∈ text := by
  have hprefix := List.rdropWhile_prefix (· == '0') text
  unfold Decimal.strip at h
  simp only at h
  split at h
  · exact hprefix.subset (List.mem_of_mem_dropLast h)
  · exact hprefix.subset h

theorem numeral_formatNumber (x : Rat) : Numeral (formatNumber x) := by
  refine ⟨fun hnil => ?_, ?_⟩
  · obtain ⟨q, hq, -⟩ := value_formatNumber x
    rw [hnil] at hq
    cases hq
  · have hfixed : ∀ ch ∈ Double.fixed x 3, Json.isNumberChar ch = true := by
      intro ch hch
      rw [fixed_eq, thousandths, List.mem_append, List.mem_append, List.mem_cons] at hch
      rcases hch with hch | hch | rfl | hch
      · split at hch
        · rw [List.mem_singleton] at hch
          rw [hch]
          rfl
        · cases hch
      · exact (numeral_digits _).2 ch hch
      · rfl
      · have hdigits := isDigits_padded 3 (roundedThousandths x % 1000)
        rw [Decimal.isDigits, Bool.and_eq_true] at hdigits
        rw [Json.isNumberChar, List.all_eq_true.mp hdigits.2 ch hch, Bool.true_or]
    intro ch hch
    rw [formatNumber_eq] at hch
    split at hch
    · rw [List.mem_singleton] at hch
      rw [hch]
      rfl
    · exact hfixed ch (mem_strip hch)

/-! ## Fields -/

namespace JsonField
variable {F : Type} [Double F]

def name : JsonField F → String
  | .timestamp name _ | .counter name _ | .gauge name _ | .number name _ | .uint name _
  | .text name _ => name

/-- What a reader of JSON finds. -/
def value (platform : Platform) : JsonField F → Json.Value
  | .timestamp _ value => .text (formatUtcTime platform value)
  | .counter _ value | .uint _ value => .number (digits value)
  | .gauge _ value => .number (signed value)
  | .number _ value => .number (formatNumber value)
  | .text _ value => .text value

def member (platform : Platform) (field : JsonField F) : Text × Json.Value :=
  (field.name.toList, field.value platform)

/-- A member means what its field is: whole numbers are exact, and others are near. -/
def Means (platform : Platform) (field : JsonField Rat) (member : Text × Json.Value) : Prop :=
  member.1 = field.name.toList ∧
    match field with
    | .timestamp _ value => member.2 = .text (formatUtcTime platform value)
    | .counter _ value | .uint _ value =>
      ∃ literal, member.2 = .number literal ∧ Decimal.value literal = some (value : Rat)
    | .gauge _ value =>
      ∃ literal, member.2 = .number literal ∧ Decimal.value literal = some (value : Rat)
    | .number _ value =>
      ∃ literal q, member.2 = .number literal ∧ Decimal.value literal = some q ∧
        |q - value| ≤ 1 / 2000
    | .text _ value => member.2 = .text value

theorem means_member (platform : Platform) (field : JsonField Rat) :
    field.Means platform (field.member platform) := by
  refine ⟨rfl, ?_⟩
  cases field with
  | timestamp name value => rfl
  | counter name value => exact ⟨_, rfl, value_digits value⟩
  | gauge name value => exact ⟨_, rfl, value_signed value⟩
  | number name value =>
    obtain ⟨q, hq, hnear⟩ := value_formatNumber value
    exact ⟨_, q, rfl, hq, hnear⟩
  | uint name value => exact ⟨_, rfl, value_digits value⟩
  | text name value => rfl

end JsonField

/-- A text with no control characters. -/
def Visible (text : Text) : Prop := ∀ ch ∈ text, 0x20 ≤ ch.toNat

theorem visible_singleton {ch : Char} (h : 0x20 ≤ ch.toNat) : Visible [ch] := by
  intro c hc
  rw [List.mem_singleton] at hc
  rw [hc]
  exact h

theorem Visible.append {x y : Text} (hx : Visible x) (hy : Visible y) : Visible (x ++ y) := by
  intro ch hch
  rcases List.mem_append.mp hch with hch | hch
  · exact hx ch hch
  · exact hy ch hch

theorem Numeral.visible {text : Text} (h : Numeral text) : Visible text := by
  intro ch hch
  have hnumber := h.2 ch hch
  rw [Json.isNumberChar, Bool.or_eq_true] at hnumber
  rcases hnumber with hdigit | hother
  · have hge := (Char.isDigit_iff_toNat.mp hdigit).1
    have hzero : '0'.toNat = 48 := rfl
    omega
  · simp only [List.contains_iff_mem, List.mem_cons, List.not_mem_nil, or_false] at hother
    rcases hother with rfl | rfl | rfl | rfl | rfl <;> decide

theorem visible_quoted {text : Text} (h : Visible text) : Visible (quoted text) := by
  have hquote : Visible ['"'] := visible_singleton (by decide)
  exact (hquote.append h).append hquote

theorem visible_jsonEscape (text : Text) : Visible (jsonEscape text) :=
  (represents_jsonEscape text).visible

theorem visible_name {name : String} (h : plainName name = true) : Visible name.toList := by
  intro ch hch
  have hplain : Json.Plain ch := of_decide_eq_true (List.all_eq_true.mp h ch hch)
  exact hplain.1

section
variable {platform : Platform} {field : JsonField Rat} {fields : List (JsonField Rat)}

theorem visible_write (h : plainName field.name = true) : Visible (field.write platform) := by
  have hcolon : Visible [':'] := visible_singleton (by decide)
  have hname : Visible (quoted field.name.toList ++ [':']) :=
    (visible_quoted (visible_name h)).append hcolon
  cases field with
  | timestamp name value => exact hname.append (visible_quoted (visible_jsonEscape _))
  | counter name value => exact hname.append (numeral_digits value).visible
  | gauge name value => exact hname.append (numeral_signed value).visible
  | number name value => exact hname.append (numeral_formatNumber value).visible
  | uint name value => exact hname.append (numeral_digits value).visible
  | text name value => exact hname.append (visible_quoted (visible_jsonEscape _))

theorem isMember_write (h : plainName field.name = true) :
    Json.IsMember (field.write platform) (field.member platform) := by
  have hplain : ∀ ch ∈ field.name.toList, Json.Plain ch := fun ch hch =>
    of_decide_eq_true (List.all_eq_true.mp h ch hch)
  cases field with
  | timestamp name value => exact .text hplain (represents_jsonEscape _)
  | counter name value => exact .number hplain (numeral_digits value).1 (numeral_digits value).2
  | gauge name value => exact .number hplain (numeral_signed value).1 (numeral_signed value).2
  | number name value =>
    exact .number hplain (numeral_formatNumber value).1 (numeral_formatNumber value).2
  | uint name value => exact .number hplain (numeral_digits value).1 (numeral_digits value).2
  | text name value => exact .text hplain (represents_jsonEscape _)

theorem visible_unclosedObject (h : ∀ field ∈ fields, plainName field.name = true) :
    Visible (unclosedObject platform fields) := by
  have hcomma : Visible [','] := visible_singleton (by decide)
  refine Visible.append (visible_singleton (by decide)) ?_
  have hwrites : ∀ text ∈ fields.map (JsonField.write platform), Visible text := by
    intro text htext
    obtain ⟨field, hfield, rfl⟩ := List.mem_map.mp htext
    exact visible_write (h field hfield)
  generalize fields.map (JsonField.write platform) = texts at hwrites
  induction texts with
  | nil => nofun
  | cons text texts ih =>
    rw [List.forall_mem_cons] at hwrites
    cases texts with
    | nil =>
      rw [List.intercalate_singleton]
      exact hwrites.1
    | cons text' texts =>
      rw [List.intercalate_cons_cons]
      exact (hwrites.1.append hcomma).append (ih hwrites.2)

theorem split_jsonObject (h : ∀ field ∈ fields, plainName field.name = true) (hne : fields ≠ []) :
    Json.split (jsonObject platform fields) = some (fields.map (JsonField.member platform)) := by
  refine Json.split_object ?_ (by simpa using hne)
  rw [List.forall₂_map_left_iff, List.forall₂_map_right_iff]
  exact List.forall₂_same.mpr fun field hfield => isMember_write (h field hfield)

end

theorem plain_serverFields (record previous : SnapshotRecord Rat) :
    ∀ field ∈ ServerMetricsWriter.snapshotFields record previous,
      plainName field.name = true := by
  simp only [ServerMetricsWriter.snapshotFields, List.forall_mem_cons, JsonField.name]
  decide

theorem plain_clientFields (record : ClientRecord Rat) (previous : Option (ClientRecord Rat)) :
    ∀ field ∈ ClientMetricsWriter.snapshotFields record previous,
      plainName field.name = true := by
  simp only [ClientMetricsWriter.snapshotFields, List.forall_mem_cons, JsonField.name]
  decide

/-! ## Files -/

/-- The line that an effect puts into a file. -/
def Effect.lineAt (path : Text) : Effect → Option Text
  | .line file text _ => if file = path then some text else none
  | _ => none

def linesAt (path : Text) (effects : List Effect) : List Text :=
  effects.filterMap (Effect.lineAt path)

/-- What the effects have put into a file. -/
def fileText (path : Text) (effects : List Effect) : Text :=
  (linesAt path effects).flatMap (· ++ ['\n'])

/-! ## Which captures are in a file -/

namespace Reporter
variable {I S T B K : Type} (r : Reporter I S T B K)

/-- The captures of a call whose line is in the file at `path`: the call has come to its snapshot,
this is the file, and it has taken the line. -/
def writtenBy (path : Text) (l : WriterLabel I) (w' : Writer S T B) (effects : List Effect) :
    List I :=
  if takenOf effects ≠ [] ∧ w'.snapshotPath = path then
    l.capture?.toList.filter fun i => r.inFile ⟨l.isStart, r.file i, r.drained i⟩
  else []

/-- The captures of a run whose line is in the file at `path`. -/
def written (platform : Platform) (path : Text) :
    Writer S T B → List (WriterLabel I) → List I
  | _, [] => []
  | w, l :: ls =>
    match r.code.step platform w l with
    | none => []
    | some (w', effects) => r.writtenBy path l w' effects ++ written platform path w' ls

/-- A capture has its line in the file exactly if the file takes it and it is not skipped, and the
line is about what has been captured. -/
structure Writes (R : I → Text → Prop) : Prop where
  lawful : r.Lawful
  line : ∀ (w : Writer S T B) final i path, List.Forall₂ R
    (if r.file i = .written ∧ r.skips w.baseline final = false then
      if w.snapshotPath = path then [i] else []
    else [])
    (linesAt path (r.code.capture w final i).2.2)

end Reporter

section
variable {I S T B K : Type} {platform : Platform} {r : Reporter I S T B K} {R : I → Text → Prop}
  {w w' : Writer S T B} {effects : List Effect} {path : Text}

theorem linesAt_append (path : Text) (effects effects' : List Effect) :
    linesAt path (effects ++ effects') = linesAt path effects ++ linesAt path effects' :=
  List.filterMap_append

theorem Silent.linesAt (h : Silent effects) (path : Text) : linesAt path effects = [] := by
  have hlines := List.filterMap_eq_nil_iff.mp h.lines
  refine List.filterMap_eq_nil_iff.mpr fun e he => ?_
  cases e with
  | line file text drained => exact absurd (hlines _ he) (Option.some_ne_none _)
  | taken drained => rfl
  | observed drained => rfl
  | summary file text => rfl

theorem forall₂_silent {l : WriterLabel I} (h : Silent effects) :
    List.Forall₂ R (r.writtenBy path l w' effects) (linesAt path effects) := by
  rw [Reporter.writtenBy, if_neg fun htaken => htaken.1 h.taken, h.linesAt]
  exact .nil

/-- A call that comes to its snapshot. -/
theorem forall₂_captured (h : r.Writes R) {w₁ : Writer S T B} {l : WriterLabel I} {final : Bool}
    {i : I} {rest : List Effect} (hi : l.capture? = some i) (hrest : Silent rest)
    (hskips : r.skips w₁.baseline final = (l.isStart && r.skipsFirst))
    (he : effects = (r.code.capture w₁ final i).2.2 ++ rest)
    (hpath : w'.snapshotPath = w₁.snapshotPath) :
    List.Forall₂ R (r.writtenBy path l w' effects) (linesAt path effects) := by
  have htaken : takenOf effects ≠ [] := by
    rw [he, takenOf_append, h.lawful.taken]
    simp
  have hline := h.line w₁ final i path
  rw [he, linesAt_append, hrest.linesAt, List.append_nil, ← he]
  convert hline using 1
  rw [Reporter.writtenBy, hi, hskips, hpath]
  by_cases hat : w₁.snapshotPath = path
  · rw [if_pos ⟨htaken, hat⟩, if_pos hat]
    cases l.isStart <;> simp [Reporter.inFile, List.filter_cons]
  · rw [if_neg fun hboth => hat hboth.2, if_neg hat, ite_self]

theorem written_step (h : r.Writes R) {l : WriterLabel I}
    (hsettled : w.running = true → r.skips w.baseline false = false)
    (hs : r.code.step platform w l = some (w', effects)) (path : Text) :
    (w'.running = true → r.skips w'.baseline false = false) ∧
      List.Forall₂ R (r.writtenBy path l w' effects) (linesAt path effects) := by
  cases l with
  | setLogicThreadId threadId =>
    obtain ⟨set, -, heq⟩ := Option.map_eq_some_iff.mp hs
    cases heq
    exact ⟨hsettled, forall₂_silent silent_nil⟩
  | start i =>
    have heq : (r.code.start platform w i).2 = (w', effects) := Option.some.inj hs
    rcases start_cases platform h.lawful w i with ⟨he, hr⟩ | ⟨w₁, hfirst, he, hpath, hr⟩
    · rw [heq] at he hr
      refine ⟨fun hrunning => ?_, forall₂_silent ((show effects = [] from he) ▸ silent_nil)⟩
      obtain ⟨hold, hbaseline⟩ := hr hrunning
      rw [hbaseline]
      exact hsettled hold
    · rw [heq] at he hpath hr
      exact ⟨hr, forall₂_captured h rfl silent_nil (hfirst.trans (Bool.true_and _).symm)
        (he.trans (List.append_nil _).symm) hpath⟩
  | turn i =>
    obtain ⟨hrunning, he, hpath, hr⟩ := turn_cases h.lawful hs
    exact ⟨hr, forall₂_captured h rfl silent_nil (hsettled hrunning)
      (he.trans (List.append_nil _).symm) hpath⟩
  | stop i =>
    have heq : r.code.stop w i = (w', effects) := Option.some.inj hs
    obtain ⟨hr, hcase⟩ := stop_cases h.lawful w i
    rw [heq] at hr hcase
    refine ⟨fun hrunning => absurd (hr.symm.trans hrunning) (by decide), ?_⟩
    rcases hcase with he | ⟨w₁, rest, hsilent, he, hpath⟩
    · exact forall₂_silent ((show effects = [] from he) ▸ silent_nil)
    · exact forall₂_captured h rfl hsilent (h.lawful.last w₁.baseline) he hpath

theorem written_run (h : r.Writes R) {ls : List (WriterLabel I)}
    (hsettled : w.running = true → r.skips w.baseline false = false)
    (hr : r.code.run platform w ls = some (w', effects)) (path : Text) :
    List.Forall₂ R (r.written platform path w ls) (linesAt path effects) := by
  induction ls generalizing w effects with
  | nil =>
    cases hr
    exact .nil
  | cons l ls ih =>
    obtain ⟨⟨w₁, first⟩, hs, hrest⟩ := Option.bind_eq_some_iff.mp hr
    obtain ⟨⟨w₂, later⟩, hrun, heq⟩ := Option.map_eq_some_iff.mp hrest
    cases heq
    obtain ⟨hsettled₁, hfirst⟩ := written_step h hsettled hs path
    have hwritten : r.written platform path w (l :: ls) =
        r.writtenBy path l w₁ first ++ r.written platform path w₁ ls := by
      rw [Reporter.written, hs]
    rw [hwritten, linesAt_append]
    exact List.rel_append hfirst (ih hsettled₁ hrun)

/-- From the start on. -/
theorem written_start (h : r.Writes R) {ls : List (WriterLabel I)}
    (hr : r.code.run platform r.start ls = some (w', effects)) (path : Text) :
    List.Forall₂ R (r.written platform path r.start ls) (linesAt path effects) :=
  written_run h (fun hrunning => absurd (h.lawful.start.symm.trans hrunning) (by decide)) hr path

end

/-! ## What is read back -/

/-- An object has exactly these fields. -/
def IsObject (platform : Platform) (fields : List (JsonField Rat))
    (object : List (Text × Json.Value)) : Prop :=
  List.Forall₂ (JsonField.Means platform) fields object

section
variable {platform : Platform} {fields : List (JsonField Rat)}

theorem read_jsonObject (hne : fields ≠ []) (hplain : ∀ field ∈ fields,
    plainName field.name = true) : ∃ object,
      Json.split (jsonObject platform fields) = some object ∧ IsObject platform fields object := by
  refine ⟨_, split_jsonObject hplain hne, ?_⟩
  rw [IsObject, List.forall₂_map_right_iff]
  exact List.forall₂_same.mpr fun field _ => JsonField.means_member platform field

theorem line_unclosedObject (hplain : ∀ field ∈ fields, plainName field.name = true) :
    '\n' ∉ unclosedObject platform fields ∧ unclosedObject platform fields ≠ [] :=
  ⟨fun hnewline => absurd (visible_unclosedObject hplain '\n' hnewline) (by decide),
    by simp [unclosedObject]⟩

theorem line_jsonObject (hplain : ∀ field ∈ fields, plainName field.name = true) :
    '\n' ∉ jsonObject platform fields ∧ jsonObject platform fields ≠ [] := by
  have hline := @line_unclosedObject platform fields hplain
  rw [jsonObject]
  exact ⟨by simp [hline.1], by simp⟩

end

/-- The fields of a line about this capture. -/
def ServerFields (i : ServerCapture) (fields : List (JsonField Rat)) : Prop :=
  ∃ runtime previous,
    fields = ServerMetricsWriter.snapshotFields (.of i.snapshot i.steadyNow runtime) previous

def ClientFields (i : ClientCapture Rat) (fields : List (JsonField Rat)) : Prop :=
  ∃ processCpuPercent threadCount previous, fields =
    ClientMetricsWriter.snapshotFields (.of i.snapshot processCpuPercent threadCount) previous

theorem ServerFields.proper {i : ServerCapture} {fields : List (JsonField Rat)}
    (h : ServerFields i fields) :
    fields ≠ [] ∧ ∀ field ∈ fields, plainName field.name = true := by
  obtain ⟨runtime, previous, rfl⟩ := h
  exact ⟨by simp [ServerMetricsWriter.snapshotFields], plain_serverFields _ _⟩

theorem ClientFields.proper {i : ClientCapture Rat} {fields : List (JsonField Rat)}
    (h : ClientFields i fields) :
    fields ≠ [] ∧ ∀ field ∈ fields, plainName field.name = true := by
  obtain ⟨processCpuPercent, threadCount, previous, rfl⟩ := h
  exact ⟨by simp [ClientMetricsWriter.snapshotFields], plain_clientFields _ _⟩

theorem linesAt_line (path file text : Text) (drained observed : List Nat) :
    linesAt path [.line file text drained, .observed observed] =
      if file = path then [text] else [] := by
  by_cases hpath : file = path
  · rw [if_pos hpath]
    exact List.filterMap_cons_some (if_pos hpath)
  · rw [if_neg hpath]
    exact List.filterMap_cons_none (if_neg hpath)

/-- A line goes into one file. -/
theorem forall₂_line {I : Type} {R : I → Text → Prop} {i : I} {path file text : Text}
    {drained observed : List Nat} (hR : R i text) :
    List.Forall₂ R (if file = path then [i] else [])
      (linesAt path [.line file text drained, .observed observed]) := by
  rw [linesAt_line]
  split
  · exact .cons hR .nil
  · exact .nil

theorem server_writes (platform : Platform) (config : MetricsConfig) (manifest : RunManifest) :
    (serverReporter (F := Rat) platform config manifest).Writes fun i text =>
      ∃ fields, ServerFields i fields ∧ text = unclosedObject platform fields := by
  refine ⟨serverReporter_lawful platform config manifest, fun w final i path => ?_⟩
  change List.Forall₂ _ (if i.file = .written ∧ false = false then
      if w.snapshotPath = path then [i] else [] else [])
    (linesAt path (ServerMetricsWriter.captureAndWriteSnapshot platform w i).2.2)
  unfold ServerMetricsWriter.captureAndWriteSnapshot
  cases hfile : i.file with
  | openFailed => exact .nil
  | writeFailed => exact .nil
  | closeFailed => exact .nil
  | written => exact forall₂_line ⟨_, ⟨_, _, rfl⟩, rfl⟩

theorem client_writeSnapshot (platform : Platform) (w : ClientWriter Rat)
    {record : ClientRecord Rat} (file : SnapshotFile) (path : Text) {i : ClientCapture Rat}
    (hrecord : ∃ processCpuPercent threadCount,
      record = .of i.snapshot processCpuPercent threadCount) :
    List.Forall₂ (fun i text => ∃ fields, ClientFields i fields ∧
        text = jsonObject platform fields)
      (if file = .written then if w.snapshotPath = path then [i] else [] else [])
      (linesAt path (ClientMetricsWriter.writeSnapshot platform w record file).2.2) := by
  obtain ⟨processCpuPercent, threadCount, rfl⟩ := hrecord
  cases file with
  | openFailed => exact .nil
  | writeFailed => exact .nil
  | closeFailed => exact .nil
  | written => exact forall₂_line ⟨_, ⟨_, _, _, rfl⟩, rfl⟩

theorem client_writes (platform : Platform) (config : MetricsConfig) (manifest : RunManifest) :
    (clientReporter (F := Rat) platform config manifest).Writes fun i text =>
      ∃ fields, ClientFields i fields ∧ text = jsonObject platform fields := by
  refine ⟨clientReporter_lawful platform config manifest, fun w final i path => ?_⟩
  obtain ⟨w', record, hkeeps, hrecord, hcapture⟩ := client_capture_cases platform w final i
  change List.Forall₂ _ (if i.file = .written ∧
      (!w.baseline.hasPreviousRecord && !final) = false then
      if w.snapshotPath = path then [i] else [] else [])
    (linesAt path (ClientMetricsWriter.captureAndWriteSnapshot platform w final i).2.2)
  split at hcapture
  · rename_i hskip
    rw [hcapture, if_neg fun h => absurd (hskip.symm.trans h.2) (by decide)]
    exact .nil
  · rename_i hskip
    have hwrite := client_writeSnapshot platform w' i.file path hrecord
    rw [Bool.not_eq_true] at hskip
    rw [hkeeps.snapshotPath] at hwrite
    rw [hcapture]
    simp only [hskip, and_true]
    exact hwrite

section
variable {I : Type} {platform : Platform} {Fields : I → List (JsonField Rat) → Prop}
  {captures : List I} {texts : List Text}

/-- Objects on lines of their own are read one by one. -/
theorem read_objects (hproper : ∀ i fields, Fields i fields →
      fields ≠ [] ∧ ∀ field ∈ fields, plainName field.name = true)
    (h : List.Forall₂ (fun i text => ∃ fields, Fields i fields ∧
      text = jsonObject platform fields) captures texts) :
    ∃ objects, Json.lines (texts.flatMap (· ++ ['\n'])) = some objects ∧
      List.Forall₂ (fun i object => ∃ fields, Fields i fields ∧ IsObject platform fields object)
        captures objects := by
  have hread : ∃ objects, (∀ text ∈ texts, '\n' ∉ text ∧ text ≠ []) ∧
      List.Forall₂ (fun text object => Json.split text = some object) texts objects ∧
      List.Forall₂ (fun i object => ∃ fields, Fields i fields ∧ IsObject platform fields object)
        captures objects := by
    induction h with
    | nil => exact ⟨[], nofun, .nil, .nil⟩
    | @cons i _ _ _ hline _ ih =>
      obtain ⟨fields, hfields, rfl⟩ := hline
      obtain ⟨hne, hplain⟩ := hproper i fields hfields
      obtain ⟨object, hsplit, hobject⟩ := @read_jsonObject platform fields hne hplain
      obtain ⟨objects, hlines, hsplits, hobjects⟩ := ih
      exact ⟨object :: objects, List.forall_mem_cons.mpr ⟨line_jsonObject hplain, hlines⟩,
        .cons hsplit hsplits, .cons ⟨fields, hfields, hobject⟩ hobjects⟩
  obtain ⟨objects, hlines, hsplits, hobjects⟩ := hread
  exact ⟨objects, Json.lines_of_split hlines hsplits, hobjects⟩

/-- Without their braces the lines are no objects. -/
theorem unclosed_lines (hproper : ∀ i fields, Fields i fields →
      fields ≠ [] ∧ ∀ field ∈ fields, plainName field.name = true)
    (h : List.Forall₂ (fun i text => ∃ fields, Fields i fields ∧
      text = unclosedObject platform fields) captures texts) :
    ∀ text ∈ texts, ('\n' ∉ text ∧ text ≠ []) ∧ Json.split text = none := by
  induction h with
  | nil => nofun
  | @cons i _ _ _ hline _ ih =>
    obtain ⟨fields, hfields, rfl⟩ := hline
    obtain ⟨hne, hplain⟩ := hproper i fields hfields
    refine List.forall_mem_cons.mpr ⟨⟨line_unclosedObject hplain, ?_⟩, ih⟩
    exact Json.split_unclosed (@split_jsonObject platform fields hplain hne)

end

def someClientStop (capture : ClientCapture Rat) : StopInput (ClientCapture Rat) :=
  ⟨0, capture, .written, true⟩

end Highp.Metrics
