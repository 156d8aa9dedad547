import Mathlib.Data.List.DropRight
import Mathlib.Data.Int.Basic
import Mathlib.Algebra.Order.Ring.Int

/-! The two parsers of the configuration files: one for `consteval`, one for the start of the
program. A string, a view and a literal are lists of characters. -/

namespace Highp.Config

inductive TomlValueType
  | string
  | integer
  | boolean
  deriving DecidableEq, Repr

/-! ## What both `StringUtils` have in the same words -/

def isWhitespace (c : Char) : Bool := c == ' ' || c == '\t' || c == '\r' || c == '\n'

def isDigit (c : Char) : Bool := '0' ≤ c && c ≤ '9'

def trimLeft (str : List Char) : List Char := str.dropWhile isWhitespace

def trimRight (str : List Char) : List Char := str.rdropWhile isWhitespace

def trim (str : List Char) : List Char := trimRight (trimLeft str)

/-- `str.substr(pos, n)`. -/
def substr (str : List Char) (pos n : Nat) : List Char := (str.drop pos).take n

/-- A signed machine integer of so many bits. -/
def wrap (bits : Nat) (x : Int) : Int := x.bmod (2 ^ bits)

/-- The loop of `ParseInt` and `ParseLong`. -/
def parseDigits (bits : Nat) : Int → List Char → Option Int
  | result, [] => some result
  | result, c :: cs =>
    if !isDigit c then none
    else parseDigits bits (wrap bits (result * 10 + (c.toNat - '0'.toNat : Nat))) cs

def parseNumber (bits : Nat) (str : List Char) : Option Int :=
  match trim str with
  | [] => none
  | c :: cs =>
    let negative := c == '-'
    let digits := if c == '-' || c == '+' then cs else c :: cs
    if digits = [] then none
    else (parseDigits bits 0 digits).map fun result =>
      if negative then wrap bits (-result) else result

def parseInt (str : List Char) : Option Int := parseNumber 32 str

/-- The servers are built for Windows, where a `long` has 32 bits. -/
def parseLong (str : List Char) : Option Int := parseNumber 32 str

def unquote (str : List Char) : List Char :=
  let str := trim str
  if str.length ≥ 2 ∧
      ((str.head? = some '"' ∧ str.getLast? = some '"') ∨
        (str.head? = some '\'' ∧ str.getLast? = some '\'')) then
    substr str 1 (str.length - 2)
  else str

/-- The inner loop of both `Parse`: where the line ends. -/
def lineEnd (content : List Char) (i : Nat) : Nat :=
  if h : i < content.length then
    if content[i] ≠ '\n' then lineEnd content (i + 1) else i
  else i
termination_by content.length - i

theorem le_lineEnd (content : List Char) (i : Nat) : i ≤ lineEnd content i := by
  fun_induction lineEnd content i with
  | case1 i h hne ih => omega
  | case2 i h heq => exact Nat.le_refl i
  | case3 i h => exact Nat.le_refl i

/-- The line that starts there, without `\r\n` and trimmed. -/
def lineAt (content : List Char) (lineStart : Nat) : List Char :=
  let lineEnd := lineEnd content lineStart
  let actualEnd :=
    if lineEnd > lineStart ∧ content[lineEnd - 1]? = some '\r' then lineEnd - 1 else lineEnd
  trim (substr content lineStart (actualEnd - lineStart))

/-! ## Compile time -/

namespace CompileTimeStringUtils

def findLoop (str : List Char) (c : Char) (i : Nat) : Option Nat :=
  if h : i < str.length then
    if str[i] = c then some i else findLoop str c (i + 1)
  else none
termination_by str.length - i

def find (str : List Char) (c : Char) : Option Nat := findLoop str c 0

def equalsLoop (a b : List Char) (i : Nat) : Bool :=
  if i < a.length then
    if a[i]? ≠ b[i]? then false else equalsLoop a b (i + 1)
  else true
termination_by a.length - i

def equals (a b : List Char) : Bool :=
  if a.length ≠ b.length then false else equalsLoop a b 0

def parseBool (str : List Char) : Option Bool :=
  let str := trim str
  if equals str "true".toList then some true
  else if equals str "false".toList then some false
  else none

end CompileTimeStringUtils

structure CompileTimeTomlEntry where
  sectionName : List Char
  key : List Char
  value : List Char
  ioType : TomlValueType
  deriving DecidableEq, Repr

namespace CompileTimeTomlEntry
open CompileTimeStringUtils

/-- `Matches`. -/
def matchesKey (e : CompileTimeTomlEntry) (sec k : List Char) : Bool :=
  if e.sectionName.length ≠ sec.length ∨ e.key.length ≠ k.length then false
  else if equalsLoop e.sectionName sec 0 then equalsLoop e.key k 0
  else false

def matchesFullKey (e : CompileTimeTomlEntry) (fullKey : List Char) : Bool :=
  match findLoop fullKey '.' 0 with
  | none => e.sectionName.isEmpty && e.matchesKey [] fullKey
  | some dotPos => e.matchesKey (substr fullKey 0 dotPos) (fullKey.drop (dotPos + 1))

end CompileTimeTomlEntry

/-- The array has `maxEntries` places, of which the first `count` are in use. -/
structure CompileTimeTomlParseResult (maxEntries : Nat) where
  entries : Vector CompileTimeTomlEntry maxEntries
  count : Nat
  count_le : count ≤ maxEntries

namespace CompileTimeTomlParseResult
variable {maxEntries : Nat}

/-- A value-initialised array. -/
def empty : CompileTimeTomlParseResult maxEntries where
  entries := Vector.replicate maxEntries ⟨[], [], [], .string⟩
  count := 0
  count_le := Nat.zero_le _

/-- `Add`; its result is not looked at. -/
def add (res : CompileTimeTomlParseResult maxEntries) (entry : CompileTimeTomlEntry) :
    CompileTimeTomlParseResult maxEntries :=
  if h : res.count ≥ maxEntries then res
  else ⟨res.entries.set res.count entry (by omega), res.count + 1, by omega⟩

/-- The loop of the `Find` functions: the first entry that matches. -/
def findFrom (res : CompileTimeTomlParseResult maxEntries) (fullKey : List Char) (i : Nat) :
    Option CompileTimeTomlEntry :=
  if h : i < res.count then
    have := res.count_le
    if res.entries[i].matchesFullKey fullKey then some res.entries[i]
    else res.findFrom fullKey (i + 1)
  else none
termination_by res.count - i

def findString (res : CompileTimeTomlParseResult maxEntries) (fullKey : List Char) :
    Option (List Char) :=
  (res.findFrom fullKey 0).map fun e => unquote e.value

def findInt (res : CompileTimeTomlParseResult maxEntries) (fullKey : List Char) : Option Int :=
  (res.findFrom fullKey 0).bind fun e => parseInt e.value

def findLong (res : CompileTimeTomlParseResult maxEntries) (fullKey : List Char) : Option Int :=
  (res.findFrom fullKey 0).bind fun e => parseLong e.value

def findBool (res : CompileTimeTomlParseResult maxEntries) (fullKey : List Char) : Option Bool :=
  (res.findFrom fullKey 0).bind fun e => CompileTimeStringUtils.parseBool e.value

/-- The entries in use. -/
def toList (res : CompileTimeTomlParseResult maxEntries) : List CompileTimeTomlEntry :=
  res.entries.toList.take res.count

end CompileTimeTomlParseResult

namespace CompileTimeTomlParser
open CompileTimeStringUtils

def parseSection (line : List Char) : List Char :=
  if line.length < 3 then []
  else if line.head? ≠ some '[' then []
  else
    match find line ']' with
    | none => []
    | some closeBracket => trim (substr line 1 (closeBracket - 1))

def parseKeyValue (line currentSection : List Char) : Option CompileTimeTomlEntry :=
  match find line '=' with
  | none => none
  | some eqPos =>
    let key := trim (substr line 0 eqPos)
    let value := trim (line.drop (eqPos + 1))
    let value :=
      match find value '#' with
      | some commentPos => trim (substr value 0 commentPos)
      | none => value
    let ioType : TomlValueType :=
      if equals value "true".toList || equals value "false".toList then .boolean
      else if value.head?.any (fun c => isDigit c || c == '-' || c == '+') then .integer
      else .string
    some ⟨currentSection, key, value, ioType⟩

/-- The loop of `Parse`. -/
def loop {maxEntries : Nat} (content : List Char) (lineStart : Nat)
    (res : CompileTimeTomlParseResult maxEntries) (currentSection : List Char) :
    CompileTimeTomlParseResult maxEntries :=
  if lineStart < content.length then
    have := le_lineEnd content lineStart
    let line := lineAt content lineStart
    let next := lineEnd content lineStart + 1
    if line.head?.any (fun c => c ≠ '#') then
      if line.head? = some '[' then loop content next res (parseSection line)
      else
        match parseKeyValue line currentSection with
        | some entry => loop content next (res.add entry) currentSection
        | none => loop content next res currentSection
    else loop content next res currentSection
  else res
termination_by content.length - lineStart

def parse (maxEntries : Nat) (content : List Char) : CompileTimeTomlParseResult maxEntries :=
  loop content 0 .empty []

end CompileTimeTomlParser

/-! ## Run time -/

namespace StringUtils

/-- `Find`, by `std::string_view::find`. -/
def find (str : List Char) (c : Char) : Option Nat := str.findIdx? (· == c)

def parseBool (str : List Char) : Option Bool :=
  let str := trim str
  if str = "true".toList then some true
  else if str = "false".toList then some false
  else none

end StringUtils

structure TomlEntry where
  sectionName : List Char
  key : List Char
  value : List Char
  ioType : TomlValueType
  deriving DecidableEq, Repr

namespace TomlEntry

/-- `Matches`. -/
def matchesKey (e : TomlEntry) (sec k : List Char) : Bool := e.sectionName == sec && e.key == k

def matchesFullKey (e : TomlEntry) (fullKey : List Char) : Bool :=
  match fullKey.findIdx? (· == '.') with
  | none => e.sectionName.isEmpty && e.key == fullKey
  | some dotPos => e.matchesKey (substr fullKey 0 dotPos) (fullKey.drop (dotPos + 1))

end TomlEntry

structure TomlParseResult where
  entries : List TomlEntry
  deriving DecidableEq, Repr

namespace TomlParseResult

def add (res : TomlParseResult) (entry : TomlEntry) : TomlParseResult := ⟨res.entries ++ [entry]⟩

/-- The loop of the `Find` functions: the first entry that matches. -/
def findEntry (res : TomlParseResult) (fullKey : List Char) : Option TomlEntry :=
  res.entries.find? fun e => e.matchesFullKey fullKey

def findString (res : TomlParseResult) (fullKey : List Char) : Option (List Char) :=
  (res.findEntry fullKey).map fun e => unquote e.value

def findInt (res : TomlParseResult) (fullKey : List Char) : Option Int :=
  (res.findEntry fullKey).bind fun e => parseInt e.value

def findLong (res : TomlParseResult) (fullKey : List Char) : Option Int :=
  (res.findEntry fullKey).bind fun e => parseLong e.value

def findBool (res : TomlParseResult) (fullKey : List Char) : Option Bool :=
  (res.findEntry fullKey).bind fun e => StringUtils.parseBool e.value

/-- The result restricted to its first entries. -/
def restrict (res : TomlParseResult) (n : Nat) : TomlParseResult := ⟨res.entries.take n⟩

end TomlParseResult

namespace TomlParser
open StringUtils

def parseSection (line : List Char) : List Char :=
  if line.length < 3 ∨ line.head? ≠ some '[' then []
  else
    match find line ']' with
    | none => []
    | some closeBracket => trim (substr line 1 (closeBracket - 1))

def parseKeyValue (line currentSection : List Char) : Option TomlEntry :=
  match find line '=' with
  | none => none
  | some eqPos =>
    let key := trim (substr line 0 eqPos)
    let value := trim (line.drop (eqPos + 1))
    let value :=
      match find value '#' with
      | some commentPos => trim (substr value 0 commentPos)
      | none => value
    let ioType : TomlValueType :=
      if value = "true".toList ∨ value = "false".toList then .boolean
      else if value.head?.any (fun c => isDigit c || c == '-' || c == '+') then .integer
      else .string
    some ⟨currentSection, key, value, ioType⟩

/-- The loop of `Parse`. -/
def loop (content : List Char) (lineStart : Nat) (res : TomlParseResult)
    (currentSection : List Char) : TomlParseResult :=
  if lineStart < content.length then
    have := le_lineEnd content lineStart
    let line := lineAt content lineStart
    let next := lineEnd content lineStart + 1
    if line.head?.any (fun c => c ≠ '#') then
      if line.head? = some '[' then loop content next res (parseSection line)
      else
        match parseKeyValue line currentSection with
        | some entry => loop content next (res.add entry) currentSection
        | none => loop content next res currentSection
    else loop content next res currentSection
  else res
termination_by content.length - lineStart

def parse (content : List Char) : TomlParseResult := loop content 0 ⟨[]⟩ []

end TomlParser

/-! ## The primitives agree -/

theorem findLoop_eq (str : List Char) (c : Char) (i : Nat) :
    CompileTimeStringUtils.findLoop str c i =
      ((str.drop i).findIdx? (· == c)).map (· + i) := by
  fun_induction CompileTimeStringUtils.findLoop str c i with
  | case1 i h heq =>
    rw [List.drop_eq_getElem_cons h, List.findIdx?_cons]
    simp [heq]
  | case2 i h hne ih =>
    rw [ih, List.drop_eq_getElem_cons h, List.findIdx?_cons]
    simp only [beq_iff_eq, hne, if_false, Option.map_map]
    congr 1
    funext n
    show n + (i + 1) = n + 1 + i
    omega
  | case3 i h =>
    rw [List.drop_eq_nil_of_le (by omega)]
    rfl

theorem find_eq (str : List Char) (c : Char) :
    CompileTimeStringUtils.find str c = StringUtils.find str c := by
  rw [CompileTimeStringUtils.find, findLoop_eq]
  simp [StringUtils.find]

theorem equalsLoop_eq {a b : List Char} (hlen : a.length = b.length) (i : Nat) :
    CompileTimeStringUtils.equalsLoop a b i = decide (a.drop i = b.drop i) := by
  fun_induction CompileTimeStringUtils.equalsLoop a b i with
  | case1 i h hne =>
    rw [List.getElem?_eq_getElem h, List.getElem?_eq_getElem (by omega)] at hne
    simp only [ne_eq, Option.some.injEq] at hne
    have hb : i < b.length := by omega
    have hdrop : a.drop i ≠ b.drop i := by
      rw [List.drop_eq_getElem_cons h, List.drop_eq_getElem_cons hb]
      simp only [ne_eq, List.cons.injEq, hne, false_and, not_false_eq_true]
    simp [hdrop]
  | case2 i h heq ih =>
    rw [List.getElem?_eq_getElem h, List.getElem?_eq_getElem (by omega)] at heq
    simp only [ne_eq, Option.some.injEq, Decidable.not_not] at heq
    have hb : i < b.length := by omega
    have hdrop : a.drop i = b.drop i ↔ a.drop (i + 1) = b.drop (i + 1) := by
      rw [List.drop_eq_getElem_cons h, List.drop_eq_getElem_cons hb, heq]
      simp only [List.cons.injEq, true_and]
    rw [ih, decide_eq_decide, hdrop]
  | case3 i h =>
    rw [List.drop_eq_nil_of_le (by omega), List.drop_eq_nil_of_le (by omega)]
    simp

theorem equals_eq (a b : List Char) : CompileTimeStringUtils.equals a b = decide (a = b) := by
  unfold CompileTimeStringUtils.equals
  by_cases hlen : a.length = b.length
  · rw [if_neg (by simpa using hlen), equalsLoop_eq hlen]
    simp
  · have hne : a ≠ b := fun h => hlen (by rw [h])
    simp [hlen, hne]

theorem parseBool_eq (str : List Char) :
    CompileTimeStringUtils.parseBool str = StringUtils.parseBool str := by
  simp only [CompileTimeStringUtils.parseBool, StringUtils.parseBool, equals_eq,
    decide_eq_true_eq]

/-! ## The entries agree -/

/-- The entry with copies of its views. -/
def CompileTimeTomlEntry.copy (e : CompileTimeTomlEntry) : TomlEntry :=
  ⟨e.sectionName, e.key, e.value, e.ioType⟩

theorem matchesKey_eq (e : CompileTimeTomlEntry) (sec k : List Char) :
    e.matchesKey sec k = e.copy.matchesKey sec k := by
  unfold CompileTimeTomlEntry.matchesKey TomlEntry.matchesKey
  show _ = (e.sectionName == sec && e.key == k)
  by_cases hsec : e.sectionName.length = sec.length
  · by_cases hkey : e.key.length = k.length
    · rw [if_neg (by simp [hsec, hkey]), equalsLoop_eq hsec, equalsLoop_eq hkey]
      simp only [List.drop_zero, decide_eq_true_eq]
      by_cases heq : e.sectionName = sec
      · rw [if_pos heq, heq, beq_self_eq_true, Bool.true_and, beq_eq_decide]
      · simp [heq]
    · have hne : e.key ≠ k := fun h => hkey (by rw [h])
      simp [hkey, hne]
  · have hne : e.sectionName ≠ sec := fun h => hsec (by rw [h])
    simp [hsec, hne]

/-- Without a dot, one asks `Matches` with an empty section and the other compares the key. -/
theorem matchesFullKey_eq (e : CompileTimeTomlEntry) (fullKey : List Char) :
    e.matchesFullKey fullKey = e.copy.matchesFullKey fullKey := by
  have hdot : CompileTimeStringUtils.findLoop fullKey '.' 0 = fullKey.findIdx? (· == '.') :=
    find_eq fullKey '.'
  unfold CompileTimeTomlEntry.matchesFullKey TomlEntry.matchesFullKey
  rw [hdot]
  cases fullKey.findIdx? (· == '.') with
  | some dotPos => exact matchesKey_eq e _ _
  | none =>
    show (e.sectionName.isEmpty && e.matchesKey [] fullKey) =
      (e.sectionName.isEmpty && e.key == fullKey)
    rw [matchesKey_eq]
    cases hsec : e.sectionName with
    | nil => simp [TomlEntry.matchesKey, CompileTimeTomlEntry.copy, hsec]
    | cons c cs => simp

theorem parseSection_eq (line : List Char) :
    CompileTimeTomlParser.parseSection line = TomlParser.parseSection line := by
  unfold CompileTimeTomlParser.parseSection TomlParser.parseSection
  rw [find_eq]
  by_cases hlen : line.length < 3
  · rw [if_pos hlen, if_pos (Or.inl hlen)]
  · rw [if_neg hlen]
    by_cases hopen : line.head? = some '['
    · rw [if_neg (by simpa using hopen), if_neg (by simp [hlen, hopen])]
    · rw [if_pos hopen, if_pos (Or.inr hopen)]

theorem parseKeyValue_eq (line currentSection : List Char) :
    (CompileTimeTomlParser.parseKeyValue line currentSection).map CompileTimeTomlEntry.copy =
      TomlParser.parseKeyValue line currentSection := by
  unfold CompileTimeTomlParser.parseKeyValue TomlParser.parseKeyValue
  simp only [find_eq, equals_eq, Bool.or_eq_true, decide_eq_true_eq]
  cases StringUtils.find line '=' with
  | none => rfl
  | some eqPos => rfl

/-! ## The results agree -/

namespace CompileTimeTomlParseResult
variable {maxEntries : Nat}

theorem length_toList (res : CompileTimeTomlParseResult maxEntries) :
    res.toList.length = res.count := by
  simp [toList, res.count_le]

/-- An entry that does not fit is dropped. -/
theorem toList_add (res : CompileTimeTomlParseResult maxEntries) (entry : CompileTimeTomlEntry) :
    (res.add entry).toList = (res.toList ++ [entry]).take maxEntries := by
  have hlen := length_toList res
  have hle := res.count_le
  unfold add
  by_cases hfull : res.count ≥ maxEntries
  · rw [dif_pos hfull, List.take_append_of_le_length (by omega), List.take_of_length_le (by omega)]
  · rw [dif_neg hfull, List.take_of_length_le (by simp; omega)]
    have hlt : res.count < maxEntries := by omega
    show ((res.entries.set res.count entry hlt).toList).take (res.count + 1) = _
    rw [Vector.toList_set, List.take_add_one, List.take_set_of_le (Nat.le_refl _),
      List.getElem?_set_self (by simp; omega)]
    rfl

theorem findFrom_eq (res : CompileTimeTomlParseResult maxEntries) (fullKey : List Char)
    (i : Nat) :
    res.findFrom fullKey i = (res.toList.drop i).find? fun e => e.matchesFullKey fullKey := by
  have hlen := length_toList res
  have hle := res.count_le
  have hget : ∀ j (h : j < maxEntries), j < res.count → res.toList[j]? = some (res.entries[j]) := by
    intro j h hj
    rw [toList, List.getElem?_take_of_lt hj, Vector.getElem?_toList,
      Vector.getElem?_eq_getElem h]
  have hcons : ∀ j (h : j < maxEntries), j < res.count →
      res.toList.drop j = res.entries[j] :: res.toList.drop (j + 1) := by
    intro j h hj
    have hj' : j < res.toList.length := by omega
    have heq : res.toList[j] = res.entries[j] := by
      have := hget j h hj
      rw [List.getElem?_eq_getElem hj'] at this
      exact Option.some.inj this
    rw [List.drop_eq_getElem_cons hj', heq]
  fun_induction findFrom res fullKey i with
  | case1 i h hle hm => 
    rw [hcons i (by omega) h, List.find?_cons, hm]
  | case2 i h hle hm ih => 
    rw [ih, hcons i (by omega) h, List.find?_cons, Bool.eq_false_iff.mpr hm]
  | case3 i h =>
    rw [List.drop_eq_nil_of_le (by omega)]
    rfl

/-- The entries as copies. -/
def copies (res : CompileTimeTomlParseResult maxEntries) : List TomlEntry :=
  res.toList.map CompileTimeTomlEntry.copy

theorem copies_add (res : CompileTimeTomlParseResult maxEntries) (entry : CompileTimeTomlEntry) :
    (res.add entry).copies = (res.copies ++ [entry.copy]).take maxEntries := by
  rw [copies, toList_add, List.map_take, List.map_append]
  rfl

theorem findEntry_copies (res : CompileTimeTomlParseResult maxEntries) (fullKey : List Char) :
    (TomlParseResult.mk res.copies).findEntry fullKey =
      (res.findFrom fullKey 0).map CompileTimeTomlEntry.copy := by
  rw [findFrom_eq, List.drop_zero]
  unfold TomlParseResult.findEntry copies
  rw [List.find?_map]
  congr 1
  apply congrArg (fun p => List.find? p res.toList)
  funext e
  exact (matchesFullKey_eq e fullKey).symm

end CompileTimeTomlParseResult

/-- Adding to the whole list and cutting it is cutting after every step. -/
theorem take_append_take {α : Type} (n : Nat) (xs : List α) (x : α) :
    (xs.take n ++ [x]).take n = (xs ++ [x]).take n := by
  by_cases h : n ≤ xs.length
  · have hlen : n ≤ (xs.take n).length := by simp [h]
    rw [List.take_append_of_le_length hlen, List.take_append_of_le_length h, List.take_take,
      Nat.min_self]
  · rw [List.take_of_length_le (Nat.le_of_not_le h)]

/-- One loop against the other: they agree on what they have, and both go on in the same way. -/
theorem loop_eq {maxEntries : Nat} (content : List Char) (lineStart : Nat)
    (res : CompileTimeTomlParseResult maxEntries) (res' : TomlParseResult)
    (currentSection : List Char) (hres : res.copies = res'.entries.take maxEntries) :
    (CompileTimeTomlParser.loop content lineStart res currentSection).copies =
      (TomlParser.loop content lineStart res' currentSection).entries.take maxEntries := by
  fun_induction TomlParser.loop content lineStart res' currentSection generalizing res with
  | case1 lineStart res' currentSection hlt hle line next hany hopen ih =>
    unfold CompileTimeTomlParser.loop
    simp only [if_pos hlt]
    rw [if_pos hany, if_pos hopen, parseSection_eq]
    exact ih res hres
  | case2 lineStart res' currentSection hlt hle line next hany hopen entry hkv ih =>
    unfold CompileTimeTomlParser.loop
    simp only [if_pos hlt]
    rw [if_pos hany, if_neg hopen]
    rw [← parseKeyValue_eq] at hkv
    obtain ⟨e, he, rfl⟩ := Option.map_eq_some_iff.mp hkv
    rw [he]
    refine ih (res.add e) ?_
    rw [CompileTimeTomlParseResult.copies_add, hres, take_append_take]
    rfl
  | case3 lineStart res' currentSection hlt hle line next hany hopen hkv ih =>
    unfold CompileTimeTomlParser.loop
    simp only [if_pos hlt]
    rw [if_pos hany, if_neg hopen]
    rw [← parseKeyValue_eq] at hkv
    rw [Option.map_eq_none_iff.mp hkv]
    exact ih res hres
  | case4 lineStart res' currentSection hlt hle line next hany ih =>
    unfold CompileTimeTomlParser.loop
    simp only [if_pos hlt]
    rw [if_neg hany]
    exact ih res hres
  | case5 lineStart res' currentSection hlt =>
    unfold CompileTimeTomlParser.loop
    rw [if_neg hlt]
    exact hres

/-- The entries of the compile-time parser are the first ones of the other. -/
theorem parse_copies (maxEntries : Nat) (content : List Char) :
    (CompileTimeTomlParser.parse maxEntries content).copies =
      (TomlParser.parse content).entries.take maxEntries :=
  loop_eq content 0 .empty ⟨[]⟩ [] (by simp [CompileTimeTomlParseResult.copies,
    CompileTimeTomlParseResult.toList, CompileTimeTomlParseResult.empty])

theorem findEntry_restrict (maxEntries : Nat) (content fullKey : List Char) :
    ((TomlParser.parse content).restrict maxEntries).findEntry fullKey =
      ((CompileTimeTomlParser.parse maxEntries content).findFrom fullKey 0).map
        CompileTimeTomlEntry.copy := by
  rw [TomlParseResult.restrict, ← parse_copies]
  exact CompileTimeTomlParseResult.findEntry_copies _ fullKey

/-- **One parser up to capacity.** The result at compile time has the first entries of the result
at run time, and answers every key as these do. -/
theorem one_parser_up_to_capacity (maxEntries : Nat) (content : List Char) :
    (CompileTimeTomlParser.parse maxEntries content).toList.map CompileTimeTomlEntry.copy =
        (TomlParser.parse content).entries.take maxEntries ∧
      ∀ fullKey : List Char,
        (CompileTimeTomlParser.parse maxEntries content).findString fullKey =
            ((TomlParser.parse content).restrict maxEntries).findString fullKey ∧
          (CompileTimeTomlParser.parse maxEntries content).findInt fullKey =
            ((TomlParser.parse content).restrict maxEntries).findInt fullKey ∧
          (CompileTimeTomlParser.parse maxEntries content).findLong fullKey =
            ((TomlParser.parse content).restrict maxEntries).findLong fullKey ∧
          (CompileTimeTomlParser.parse maxEntries content).findBool fullKey =
            ((TomlParser.parse content).restrict maxEntries).findBool fullKey := by
  refine ⟨parse_copies maxEntries content, fun fullKey => ?_⟩
  have hfound := findEntry_restrict maxEntries content fullKey
  simp only [CompileTimeTomlParseResult.findString, CompileTimeTomlParseResult.findInt,
    CompileTimeTomlParseResult.findLong, CompileTimeTomlParseResult.findBool,
    TomlParseResult.findString, TomlParseResult.findInt, TomlParseResult.findLong,
    TomlParseResult.findBool, hfound, parseBool_eq]
  cases (CompileTimeTomlParser.parse maxEntries content).findFrom fullKey 0 with
  | none => exact ⟨rfl, rfl, rfl, rfl⟩
  | some e => exact ⟨rfl, rfl, rfl, rfl⟩

/-! ## The run-time parser, line by line -/

/-- What the loop of `Parse` does with one line. -/
def TomlParser.parseLine (st : TomlParseResult × List Char) (piece : List Char) :
    TomlParseResult × List Char :=
  let line := trim piece
  if line.head?.any (fun c => c ≠ '#') then
    if line.head? = some '[' then (st.1, TomlParser.parseSection line)
    else
      match TomlParser.parseKeyValue line st.2 with
      | some entry => (st.1.add entry, st.2)
      | none => st
  else st

theorem lineEnd_eq (content : List Char) (i : Nat) :
    lineEnd content i = i + ((content.drop i).takeWhile (fun c => c ≠ '\n')).length := by
  fun_induction lineEnd content i with
  | case1 i h hne ih =>
    rw [ih, List.drop_eq_getElem_cons h, List.takeWhile_cons_of_pos (by simpa using hne),
      List.length_cons]
    omega
  | case2 i h heq =>
    rw [List.drop_eq_getElem_cons h, List.takeWhile_cons_of_neg (by simpa using heq)]
    rfl
  | case3 i h =>
    rw [List.drop_eq_nil_of_le (by omega)]
    rfl

theorem trim_concat {c : Char} (hc : isWhitespace c = true) (str : List Char) :
    trim (str ++ [c]) = trim str := by
  unfold trim trimLeft trimRight
  rw [List.dropWhile_append]
  cases hd : str.dropWhile isWhitespace with
  | nil => simp [hc]
  | cons d ds => exact List.rdropWhile_concat_pos isWhitespace _ _ hc

/-- A carriage return in front of the line end is trimmed anyway. -/
theorem lineAt_eq (content : List Char) (i : Nat) :
    lineAt content i = trim ((content.drop i).takeWhile fun c => c ≠ '\n') := by
  have hend := lineEnd_eq content i
  have hsplit := List.takeWhile_append_dropWhile (p := fun c => decide (c ≠ '\n'))
    (l := content.drop i)
  generalize (content.drop i).takeWhile (fun c => decide (c ≠ '\n')) = line at *
  generalize (content.drop i).dropWhile (fun c => decide (c ≠ '\n')) = rest at *
  unfold lineAt
  simp only [hend, substr, ← hsplit]
  by_cases hcr : i + line.length > i ∧ content[i + line.length - 1]? = some '\r'
  · obtain ⟨hpos, hcr⟩ := hcr
    rw [if_pos ⟨hpos, hcr⟩]
    have hlast : line.getLast? = some '\r' := by
      have hat : i + line.length - 1 = i + (line.length - 1) := by omega
      rw [hat, ← List.getElem?_drop, ← hsplit, List.getElem?_append_left (by omega)] at hcr
      rw [List.getLast?_eq_getElem?, hcr]
    have hinit : line = line.dropLast ++ ['\r'] := by
      obtain ⟨init, rfl⟩ := List.getLast?_eq_some_iff.mp hlast
      rw [List.dropLast_concat]
    have hcut : (line ++ rest).take (i + line.length - 1 - i) = line.dropLast := by
      rw [List.take_append_of_le_length (by omega), List.dropLast_eq_take]
      congr 1
      omega
    rw [hcut]
    conv => rhs; rw [hinit, trim_concat (by decide)]
  · rw [if_neg hcr, Nat.add_sub_cancel_left, List.take_left]

/-- The first line and the lines behind it. -/
theorem foldl_lines (content : List Char) (i : Nat) (st : TomlParseResult × List Char) :
    ((content.drop i).splitOn '\n').foldl TomlParser.parseLine st =
      ((content.drop (lineEnd content i + 1)).splitOn '\n').foldl TomlParser.parseLine
        (TomlParser.parseLine st ((content.drop i).takeWhile fun c => c ≠ '\n')) := by
  have hend := lineEnd_eq content i
  have hsplit := List.takeWhile_append_dropWhile (p := fun c => decide (c ≠ '\n'))
    (l := content.drop i)
  have hdrop : content.drop (lineEnd content i + 1) =
      ((content.drop i).dropWhile fun c => decide (c ≠ '\n')).drop 1 := by
    rw [hend, Nat.add_assoc, ← List.drop_drop, ← List.drop_drop]
    congr 1
    conv => lhs; rw [← hsplit]
    rw [List.drop_left' (by simp)]
  have hline : '\n' ∉ (content.drop i).takeWhile fun c => decide (c ≠ '\n') := by
    intro hmem
    simpa using List.mem_takeWhile_imp hmem
  rw [hdrop]
  cases hd : (content.drop i).dropWhile fun c => decide (c ≠ '\n') with
  | nil =>
    rw [hd, List.append_nil] at hsplit
    conv => lhs; rw [← hsplit]
    rw [List.splitOn_eq_singleton hline]
    rfl
  | cons c rest =>
    have hc : c = '\n' := by
      have := List.head?_dropWhile_not (fun c => decide (c ≠ '\n')) (content.drop i)
      rw [hd] at this
      simpa using this
    subst hc
    rw [hd] at hsplit
    conv => lhs; rw [← hsplit]
    rw [List.splitOn_append_cons_self_of_not_mem hline]
    rfl

theorem loop_eq_foldl (content : List Char) (lineStart : Nat) (res : TomlParseResult)
    (currentSection : List Char) :
    TomlParser.loop content lineStart res currentSection =
      (((content.drop lineStart).splitOn '\n').foldl TomlParser.parseLine
        (res, currentSection)).1 := by
  fun_induction TomlParser.loop content lineStart res currentSection with
  | case1 lineStart res currentSection hlt hle line next hany hopen ih =>
    rw [ih, foldl_lines content lineStart, TomlParser.parseLine, ← lineAt_eq]
    simp only [line, next] at hany hopen ⊢
    rw [if_pos hany, if_pos hopen]
  | case2 lineStart res currentSection hlt hle line next hany hopen entry hkv ih =>
    rw [ih, foldl_lines content lineStart, TomlParser.parseLine, ← lineAt_eq]
    simp only [line, next] at hany hopen hkv ⊢
    rw [if_pos hany, if_neg hopen, hkv]
  | case3 lineStart res currentSection hlt hle line next hany hopen hkv ih =>
    rw [ih, foldl_lines content lineStart, TomlParser.parseLine, ← lineAt_eq]
    simp only [line, next] at hany hopen hkv ⊢
    rw [if_pos hany, if_neg hopen, hkv]
  | case4 lineStart res currentSection hlt hle line next hany ih =>
    rw [ih, foldl_lines content lineStart, TomlParser.parseLine, ← lineAt_eq]
    simp only [line, next] at hany ⊢
    rw [if_neg hany]
  | case5 lineStart res currentSection hlt =>
    rw [List.drop_eq_nil_of_le (by omega)]
    rfl

/-- `Parse` takes the lines one after the other. -/
theorem parse_eq_foldl (content : List Char) :
    TomlParser.parse content =
      ((content.splitOn '\n').foldl TomlParser.parseLine (⟨[]⟩, [])).1 := by
  rw [TomlParser.parse, loop_eq_foldl, List.drop_zero]

end Highp.Config
