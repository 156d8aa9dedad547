import Highp.Config.Toml

/-! The names under which the settings are looked up. A full name is split at its first dot. -/

namespace Highp.Config

theorem find_first {c : Char} {front : List Char} (h : c ∉ front) (rest : List Char) :
    StringUtils.find (front ++ c :: rest) c = some front.length := by
  have hfront : front.findIdx? (· == c) = none :=
    List.findIdx?_eq_none_iff.mpr fun _ hd => beq_eq_false_iff_ne.mpr fun hdc => h (hdc ▸ hd)
  rw [StringUtils.find, List.findIdx?_append, hfront]
  simp [List.findIdx?_cons]

theorem find_none {c : Char} {str : List Char} (h : c ∉ str) : StringUtils.find str c = none :=
  List.findIdx?_eq_none_iff.mpr fun _ hd => beq_eq_false_iff_ne.mpr fun heq => h (heq ▸ hd)

theorem substr_front (front rest : List Char) : substr (front ++ rest) 0 front.length = front := by
  rw [substr, List.drop_zero, List.take_left]

theorem drop_front (front rest : List Char) (c : Char) :
    (front ++ c :: rest).drop (front.length + 1) = rest := by
  rw [← List.drop_drop, List.drop_left]
  rfl

/-- The section and the key that a full name stands for. -/
def splitName (fullKey : List Char) : List Char × List Char :=
  match StringUtils.find fullKey '.' with
  | none => ([], fullKey)
  | some dotPos => (substr fullKey 0 dotPos, fullKey.drop (dotPos + 1))

theorem splitName_dotless {fullKey : List Char} (h : '.' ∉ fullKey) :
    splitName fullKey = ([], fullKey) := by
  rw [splitName, find_none h]

theorem splitName_dot {front : List Char} (h : '.' ∉ front) (rest : List Char) :
    splitName (front ++ '.' :: rest) = (front, rest) := by
  simp only [splitName, find_first h, substr_front, drop_front]

namespace TomlEntry

/-- The name of an entry: its key, behind the section and a dot if there is a section. -/
def fullName (e : TomlEntry) : List Char :=
  if e.sectionName = [] then e.key else e.sectionName ++ '.' :: e.key

/-- No dot in the section, and if there is none, no dot in the key. -/
def Dotless (e : TomlEntry) : Prop :=
  '.' ∉ e.sectionName ∧ (e.sectionName = [] → '.' ∉ e.key)

/-- An entry answers to the names that stand for its section and its key. -/
theorem matchesFullKey_iff (e : TomlEntry) (fullKey : List Char) :
    e.matchesFullKey fullKey = true ↔ (e.sectionName, e.key) = splitName fullKey := by
  unfold matchesFullKey splitName StringUtils.find
  cases fullKey.findIdx? (· == '.') with
  | none => simp
  | some dotPos => simp [matchesKey]

/-- What stands for an entry's section and key is its name, unless there is a dot too many. -/
theorem splitName_fullName (e : TomlEntry) :
    splitName e.fullName = (e.sectionName, e.key) ↔ e.Dotless := by
  unfold fullName Dotless
  by_cases hempty : e.sectionName = []
  · rw [if_pos hempty, hempty]
    by_cases hdot : '.' ∈ e.key
    · obtain ⟨front, rest, hkey, hfront⟩ := List.eq_append_cons_of_mem hdot
      rw [hkey, splitName_dot hfront]
      constructor
      · intro h
        -- the key would be a proper part of itself
        have hlen := congrArg (fun p => p.2.length) h
        simp at hlen
        omega
      · rintro ⟨-, hno⟩
        exact absurd (by simp) (hno rfl)
    · rw [splitName_dotless hdot]
      exact ⟨fun _ => ⟨by simp, fun _ => hdot⟩, fun _ => rfl⟩
  · rw [if_neg hempty]
    by_cases hdot : '.' ∈ e.sectionName
    · obtain ⟨front, rest, hname, hfront⟩ := List.eq_append_cons_of_mem hdot
      constructor
      · intro h
        have hsplit : splitName (e.sectionName ++ '.' :: e.key) =
            (front, rest ++ '.' :: e.key) := by
          rw [hname, List.append_assoc, List.cons_append, splitName_dot hfront]
        rw [hsplit] at h
        have hlen := congrArg (fun p => p.1.length) h
        rw [hname] at hlen
        simp at hlen
      · exact fun h => absurd hdot h.1
    · rw [splitName_dot hdot]
      exact ⟨fun _ => ⟨hdot, fun h => absurd h hempty⟩, fun _ => rfl⟩

end TomlEntry

namespace TomlParseResult

/-- The first entry with this section and this key. -/
def firstOf (res : TomlParseResult) (sectionName key : List Char) : Option TomlEntry :=
  res.entries.find? fun e => e.sectionName == sectionName && e.key == key

/-- The lookups look for the section and the key that the name stands for. -/
theorem findEntry_eq (res : TomlParseResult) (fullKey : List Char) :
    res.findEntry fullKey = res.firstOf (splitName fullKey).1 (splitName fullKey).2 := by
  unfold findEntry firstOf
  congr 1
  funext e
  rw [Bool.eq_iff_iff, e.matchesFullKey_iff]
  simp [Prod.ext_iff]

theorem firstOf_isSome {res : TomlParseResult} {e : TomlEntry} (he : e ∈ res.entries) :
    (res.firstOf e.sectionName e.key).isSome = true := by
  rw [firstOf, List.find?_isSome]
  exact ⟨e, he, by simp⟩

/-- The value of the first entry with the section and the key of this one. -/
def FoundAs (res : TomlParseResult) (e : TomlEntry) (value : Option (List Char)) : Prop :=
  value = (res.firstOf e.sectionName e.key).map fun first => unquote first.value

/-- Every entry is looked up under its name, and no name is that of two settings. -/
def SelfNamed (res : TomlParseResult) : Prop :=
  (∀ e ∈ res.entries, res.FoundAs e (res.findString e.fullName)) ∧
    ∀ e ∈ res.entries, ∀ e' ∈ res.entries, ∀ fullKey, e.matchesFullKey fullKey = true →
      e'.matchesFullKey fullKey = true → e.sectionName = e'.sectionName ∧ e.key = e'.key

/-- The name stands for another section and key, and there is an entry with these that happens to
have the same value. -/
def Mistaken (res : TomlParseResult) (e : TomlEntry) : Prop :=
  ¬ e.Dotless ∧
    ∃ other, res.firstOf (splitName e.fullName).1 (splitName e.fullName).2 = some other ∧
      res.FoundAs e (some (unquote other.value))

theorem foundAs_iff {res : TomlParseResult} {e : TomlEntry} (he : e ∈ res.entries) :
    res.FoundAs e (res.findString e.fullName) ↔ e.Dotless ∨ res.Mistaken e := by
  by_cases hdot : e.Dotless
  · have hsplit := e.splitName_fullName.mpr hdot
    refine ⟨fun _ => .inl hdot, fun _ => ?_⟩
    unfold FoundAs findString
    rw [findEntry_eq, hsplit]
  · have hfind := res.findEntry_eq e.fullName
    constructor
    · intro h
      refine .inr ⟨hdot, ?_⟩
      obtain ⟨first, hfirst⟩ := Option.isSome_iff_exists.mp (firstOf_isSome he)
      unfold FoundAs at h
      rw [hfirst, findString, hfind] at h
      obtain ⟨other, hother, heq⟩ := Option.map_eq_some_iff.mp h
      exact ⟨other, hother, by rw [FoundAs, hfirst, Option.map_some, heq]⟩
    · rintro (h | ⟨-, other, hother, h⟩)
      · exact absurd h hdot
      · rw [findString, hfind, hother]
        exact h

/-- One name stands for one section and one key. -/
theorem one_name {e e' : TomlEntry} {fullKey : List Char} (h : e.matchesFullKey fullKey = true)
    (h' : e'.matchesFullKey fullKey = true) :
    e.sectionName = e'.sectionName ∧ e.key = e'.key := by
  have hsame := ((e.matchesFullKey_iff fullKey).mp h).trans
    ((e'.matchesFullKey_iff fullKey).mp h').symm
  exact Prod.mk.inj hsame

end TomlParseResult

/-- **Settings under their own names.** Every entry of a text is looked up under its name if and
only if there is no dot too many in any name, or, where there is one, another entry happens to have
the same value. -/
theorem self_named_iff (content : List Char) :
    (TomlParser.parse content).SelfNamed ↔
      ∀ e ∈ (TomlParser.parse content).entries,
        e.Dotless ∨ (TomlParser.parse content).Mistaken e := by
  constructor
  · intro h e he
    exact (TomlParseResult.foundAs_iff he).mp (h.1 e he)
  · intro h
    exact ⟨fun e he => (TomlParseResult.foundAs_iff he).mpr (h e he),
      fun e _ e' _ fullKey => TomlParseResult.one_name⟩

/-- A setting of a section with a dot is not found. -/
theorem dotted_section_not_found :
    (TomlParser.parse "[a.b]\nc = 1\n".toList).entries =
        [⟨"a.b".toList, ['c'], ['1'], .integer⟩] ∧
      (TomlParser.parse "[a.b]\nc = 1\n".toList).findString "a.b.c".toList = none ∧
      ¬ (TomlParser.parse "[a.b]\nc = 1\n".toList).SelfNamed := by
  have hparse : TomlParser.parse "[a.b]\nc = 1\n".toList =
      ⟨[⟨"a.b".toList, ['c'], ['1'], .integer⟩]⟩ := by
    rw [parse_eq_foldl]
    decide
  have hnone : (⟨[⟨"a.b".toList, ['c'], ['1'], .integer⟩]⟩ : TomlParseResult).findString
      "a.b.c".toList = none := by decide
  rw [hparse]
  refine ⟨rfl, hnone, fun h => ?_⟩
  have hfound := h.1 _ (List.mem_singleton.mpr rfl)
  have hname : (⟨"a.b".toList, ['c'], ['1'], .integer⟩ : TomlEntry).fullName =
      "a.b.c".toList := by decide
  rw [hname, hnone] at hfound
  exact absurd hfound (by unfold TomlParseResult.FoundAs; decide)

end Highp.Config
