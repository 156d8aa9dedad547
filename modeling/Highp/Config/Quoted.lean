import Highp.Config.Layout
import Highp.Config.Names

/-! Settings that are written with a quoted value, and what is read of them. The comment is cut off
before the quotes are looked at. -/

namespace Highp.Config

/-! ## What is written -/

/-- Letters, digits and underscores. -/
def isWordChar (c : Char) : Bool := c.isAlphanum || c == '_'

/-- A name of a section or of a key. -/
def Word (str : List Char) : Prop := str ≠ [] ∧ ∀ c ∈ str, isWordChar c = true

structure Setting where
  sectionName : List Char
  key : List Char
  value : List Char
  deriving DecidableEq, Repr

namespace Setting

/-- Nothing in it but what the rendering allows. -/
def Plain (s : Setting) : Prop :=
  Word s.sectionName ∧ Word s.key ∧ '\n' ∉ s.value ∧ '"' ∉ s.value

/-- The name under which it is looked up. -/
def name (s : Setting) : List Char := s.sectionName ++ '.' :: s.key

end Setting

/-- The line `[section]`. -/
def sectionLine (sectionName : List Char) : List Char := '[' :: sectionName ++ [']']

def quoted (value : List Char) : List Char := '"' :: value ++ ['"']

/-- The line `key = "value"`. -/
def keyLine (key value : List Char) : List Char := key ++ ' ' :: '=' :: ' ' :: quoted value

/-- A section line and the lines of some keys and values. -/
structure Block where
  sectionName : List Char
  pairs : List (List Char × List Char)

namespace Block

def lines (b : Block) : List (List Char) :=
  sectionLine b.sectionName :: b.pairs.map fun p => keyLine p.1 p.2

def settings (b : Block) : List Setting := b.pairs.map fun p => ⟨b.sectionName, p.1, p.2⟩

end Block

/-- The text of some blocks, each line with its line break. -/
def render (blocks : List Block) : List Char :=
  (blocks.flatMap Block.lines).flatMap fun line => line ++ ['\n']

/-! ## Words -/

theorem Word.not_mem {str : List Char} (h : Word str) {c : Char} (hc : isWordChar c = false) :
    c ∉ str := by
  intro hmem
  rw [h.2 c hmem] at hc
  cases hc

theorem isWordChar_solid {c : Char} (h : isWordChar c = true) : isWhitespace c = false := by
  cases hw : isWhitespace c with
  | false => rfl
  | true =>
    simp only [isWhitespace, Bool.or_eq_true, beq_iff_eq] at hw
    obtain ((rfl | rfl) | rfl) | rfl := hw
    · exact absurd h (by decide)
    · exact absurd h (by decide)
    · exact absurd h (by decide)
    · exact absurd h (by decide)

theorem trim_solid {str : List Char} (h : ∀ c ∈ str, isWhitespace c = false) : trim str = str := by
  unfold trim trimLeft trimRight
  have hleft : str.dropWhile isWhitespace = str := by
    rw [List.dropWhile_eq_self_iff]
    exact fun hlt => by simp [h _ (List.getElem_mem hlt)]
  rw [hleft, List.rdropWhile_eq_self_iff]
  exact fun hne => by simp [h _ (List.getLast_mem hne)]

theorem Word.trim {str : List Char} (h : Word str) : trim str = str :=
  trim_solid fun c hc => isWordChar_solid (h.2 c hc)

theorem trimRight_concat {c : Char} (hc : isWhitespace c = false) (str : List Char) :
    trimRight (str ++ [c]) = str ++ [c] :=
  List.rdropWhile_concat_neg _ _ _ (by simp [hc])

/-! ## One line -/

theorem trim_quoted (value : List Char) : trim (quoted value) = quoted value := by
  rw [quoted, List.cons_append, trim_cons (by decide), trimRight_concat (by decide)]

theorem parseSection_sectionLine {sectionName : List Char} (h : Word sectionName) :
    TomlParser.parseSection (sectionLine sectionName) = sectionName := by
  have hlen : ¬ (sectionLine sectionName).length < 3 := by
    have := List.length_pos_of_ne_nil h.1
    simp [sectionLine]
    omega
  have hclose : StringUtils.find (sectionLine sectionName) ']' =
      some (sectionName.length + 1) := by
    have hfront : ']' ∉ '[' :: sectionName := by
      rw [List.mem_cons]
      rintro (h' | h')
      · exact absurd h' (by decide)
      · exact h.not_mem (by decide) h'
    exact find_first hfront []
  have hopen : ¬ ((sectionLine sectionName).length < 3 ∨
      (sectionLine sectionName).head? ≠ some '[') := by
    rintro (h' | h')
    · exact hlen h'
    · exact h' rfl
  rw [TomlParser.parseSection, if_neg hopen, hclose]
  show trim (substr (sectionLine sectionName) 1 sectionName.length) = sectionName
  have hname : substr (sectionLine sectionName) 1 sectionName.length = sectionName := by
    simp [sectionLine, substr]
  rw [hname, h.trim]

/-- What is read as the value: all of it, or what is in front of a `#`. -/
def rawValue (value : List Char) : List Char :=
  if '#' ∈ value then '"' :: trimRight (value.takeWhile fun c => c ≠ '#') else quoted value

theorem rawValue_head (value : List Char) : (rawValue value).head? = some '"' := by
  unfold rawValue
  by_cases hhash : '#' ∈ value
  · rw [if_pos hhash]
    rfl
  · rw [if_neg hhash]
    rfl

/-- The entry that is made of a key line. -/
def entryOf (sectionName key value : List Char) : TomlEntry :=
  ⟨sectionName, key, rawValue value, .string⟩

/-- The comment is cut off with the closing quote. -/
theorem cut_quoted (value : List Char) :
    (StringUtils.find (quoted value) '#' = none ∧ rawValue value = quoted value) ∨
      ∃ commentPos, StringUtils.find (quoted value) '#' = some commentPos ∧
        rawValue value = trim (substr (quoted value) 0 commentPos) := by
  by_cases hhash : '#' ∈ value
  · right
    obtain ⟨front, rest, rfl, hfront⟩ := List.eq_append_cons_of_mem hhash
    have hquoted : quoted (front ++ '#' :: rest) = ('"' :: front) ++ '#' :: (rest ++ ['"']) := by
      simp [quoted]
    have hopen : '#' ∉ '"' :: front := by
      rw [List.mem_cons]
      rintro (h | h)
      · exact absurd h (by decide)
      · exact hfront h
    have htake : (front ++ '#' :: rest).takeWhile (fun c => decide (c ≠ '#')) = front := by
      rw [List.takeWhile_append_of_pos, List.takeWhile_cons_of_neg (by simp), List.append_nil]
      exact fun c hc => decide_eq_true fun heq => hfront (heq ▸ hc)
    refine ⟨_, by rw [hquoted]; exact find_first hopen _, ?_⟩
    rw [rawValue, if_pos hhash, htake, hquoted, substr_front, trim_cons (by decide)]
  · left
    refine ⟨find_none ?_, if_neg hhash⟩
    rw [quoted, List.mem_append, List.mem_cons, List.mem_singleton]
    rintro ((h | h) | h)
    · exact absurd h (by decide)
    · exact hhash h
    · exact absurd h (by decide)

theorem parseKeyValue_keyLine {key : List Char} (h : Word key) (value sectionName : List Char) :
    TomlParser.parseKeyValue (keyLine key value) sectionName =
      some (entryOf sectionName key value) := by
  have hline : keyLine key value = (key ++ [' ']) ++ '=' :: ' ' :: quoted value := by
    simp [keyLine]
  have hfront : '=' ∉ key ++ [' '] := by
    rw [List.mem_append]
    rintro (h' | h')
    · exact h.not_mem (by decide) h'
    · exact absurd h' (by decide)
  have hfind : StringUtils.find (keyLine key value) '=' = some (key ++ [' ']).length := by
    rw [hline, find_first hfront]
  have hkey : trim (substr (keyLine key value) 0 (key ++ [' ']).length) = key := by
    rw [hline, substr_front, trim_concat (by decide), h.trim]
  have hvalue : trim ((keyLine key value).drop ((key ++ [' ']).length + 1)) = quoted value := by
    rw [hline, drop_front]
    have hblank : trim ([' '] ++ quoted value) = trim (quoted value) :=
      trim_prepend (List.all_eq_true.mp (by decide)) _
    exact hblank.trans (trim_quoted value)
  have htype : (rawValue value = "true".toList ∨ rawValue value = "false".toList) = False := by
    rw [eq_iff_iff, iff_false]
    rintro (h' | h')
    · exact absurd ((rawValue_head value).symm.trans (congrArg List.head? h')) (by decide)
    · exact absurd ((rawValue_head value).symm.trans (congrArg List.head? h')) (by decide)
  unfold TomlParser.parseKeyValue
  simp only [hfind, hkey, hvalue]
  rcases cut_quoted value with ⟨hcut, hraw⟩ | ⟨commentPos, hcut, hraw⟩
  · simp only [hcut]
    rw [← hraw]
    simp only [htype, rawValue_head]
    rfl
  · simp only [hcut, ← hraw, htype, rawValue_head]
    rfl

/-! ## The lines of a text -/

theorem parseLine_sectionLine {sectionName : List Char} (h : Word sectionName)
    (st : TomlParseResult × List Char) :
    TomlParser.parseLine st (sectionLine sectionName) = (st.1, sectionName) := by
  have htrim : trim (sectionLine sectionName) = sectionLine sectionName := by
    rw [sectionLine, List.cons_append, trim_cons (by decide), trimRight_concat (by decide)]
  unfold TomlParser.parseLine
  simp only [htrim]
  rw [if_pos (by rfl), if_pos (by rfl), parseSection_sectionLine h]

theorem parseLine_keyLine {key : List Char} (h : Word key) (value : List Char)
    (st : TomlParseResult × List Char) :
    TomlParser.parseLine st (keyLine key value) = (st.1.add (entryOf st.2 key value), st.2) := by
  obtain ⟨c, cs, rfl⟩ := List.exists_cons_of_ne_nil h.1
  have hc : isWordChar c = true := h.2 c (List.mem_cons_self ..)
  have htrim : trim (keyLine (c :: cs) value) = keyLine (c :: cs) value := by
    have hline : keyLine (c :: cs) value =
        c :: ((cs ++ ' ' :: '=' :: ' ' :: '"' :: value) ++ ['"']) := by
      simp [keyLine, quoted]
    rw [hline, trim_cons (isWordChar_solid hc), trimRight_concat (by decide)]
  have hhead : (keyLine (c :: cs) value).head? = some c := rfl
  have hcomment : (some c).any (fun c => c ≠ '#') = true := by
    rw [Option.any_some, decide_eq_true_eq]
    rintro rfl
    exact absurd hc (by decide)
  have hopen : ¬ some c = some '[' := by
    intro heq
    cases heq
    exact absurd hc (by decide)
  unfold TomlParser.parseLine
  simp only [htrim]
  rw [hhead, if_pos hcomment, if_neg hopen, parseKeyValue_keyLine h]

/-- A block adds its settings in their order. -/
theorem foldl_block {b : Block} (hsec : Word b.sectionName) (hkeys : ∀ p ∈ b.pairs, Word p.1)
    (entries : List TomlEntry) (currentSection : List Char) :
    b.lines.foldl TomlParser.parseLine (⟨entries⟩, currentSection) =
      (⟨entries ++ b.settings.map fun s => entryOf s.sectionName s.key s.value⟩,
        b.sectionName) := by
  obtain ⟨sectionName, pairs⟩ := b
  rw [Block.lines, List.foldl_cons, parseLine_sectionLine hsec]
  simp only [Block.settings] at hkeys ⊢
  induction pairs generalizing entries with
  | nil => simp
  | cons p pairs ih =>
    rw [List.map_cons, List.foldl_cons, parseLine_keyLine (hkeys p (List.mem_cons_self ..))]
    rw [TomlParseResult.add, ih _ hsec (fun q hq => hkeys q (List.mem_cons_of_mem _ hq))]
    simp

theorem foldl_blocks {blocks : List Block} (hsecs : ∀ b ∈ blocks, Word b.sectionName)
    (hkeys : ∀ b ∈ blocks, ∀ p ∈ b.pairs, Word p.1) (entries : List TomlEntry)
    (currentSection : List Char) :
    ((blocks.flatMap Block.lines).foldl TomlParser.parseLine (⟨entries⟩, currentSection)).1 =
      ⟨entries ++ (blocks.flatMap Block.settings).map
        fun s => entryOf s.sectionName s.key s.value⟩ := by
  induction blocks generalizing entries currentSection with
  | nil => simp
  | cons b blocks ih =>
    have hb := List.mem_cons_self (a := b) (l := blocks)
    rw [List.flatMap_cons, List.foldl_append, foldl_block (hsecs b hb) (hkeys b hb),
      ih (fun b' h => hsecs b' (List.mem_cons_of_mem _ h))
        (fun b' h => hkeys b' (List.mem_cons_of_mem _ h)), List.flatMap_cons, List.map_append,
      List.append_assoc]

/-- A text of ended lines has these lines, and an empty one behind the last line break. -/
theorem splitOn_ended {lines : List (List Char)} (h : ∀ line ∈ lines, '\n' ∉ line) :
    (lines.flatMap fun line => line ++ ['\n']).splitOn '\n' = lines ++ [[]] := by
  induction lines with
  | nil => rfl
  | cons line lines ih =>
    have hline := h line (List.mem_cons_self ..)
    rw [List.flatMap_cons, List.append_assoc, List.singleton_append,
      List.splitOn_append_cons_self_of_not_mem hline,
      ih fun l hl => h l (List.mem_cons_of_mem _ hl)]
    rfl

theorem Block.unbroken {b : Block} (hsec : Word b.sectionName)
    (hpairs : ∀ p ∈ b.pairs, Word p.1 ∧ '\n' ∉ p.2) : ∀ line ∈ b.lines, '\n' ∉ line := by
  intro line hline
  rcases List.mem_cons.mp hline with rfl | hline
  · have := hsec.not_mem (c := '\n') (by decide)
    simp [sectionLine, this]
  · obtain ⟨p, hp, rfl⟩ := List.mem_map.mp hline
    have hkey := (hpairs p hp).1.not_mem (c := '\n') (by decide)
    simp [keyLine, quoted, hkey, (hpairs p hp).2]

/-- What is read of a text of settings. -/
theorem parse_render {blocks : List Block} (hsecs : ∀ b ∈ blocks, Word b.sectionName)
    (hplain : ∀ s ∈ blocks.flatMap Block.settings, s.Plain) :
    (TomlParser.parse (render blocks)).entries =
      (blocks.flatMap Block.settings).map fun s => entryOf s.sectionName s.key s.value := by
  have hpairs : ∀ b ∈ blocks, ∀ p ∈ b.pairs, Word p.1 ∧ '\n' ∉ p.2 := by
    intro b hb p hp
    have hs : (⟨b.sectionName, p.1, p.2⟩ : Setting) ∈ blocks.flatMap Block.settings :=
      List.mem_flatMap.mpr ⟨b, hb, List.mem_map.mpr ⟨p, hp, rfl⟩⟩
    exact ⟨(hplain _ hs).2.1, (hplain _ hs).2.2.1⟩
  have hlines : ∀ line ∈ blocks.flatMap Block.lines, '\n' ∉ line := by
    intro line hline
    obtain ⟨b, hb, hline⟩ := List.mem_flatMap.mp hline
    exact Block.unbroken (hsecs b hb) (hpairs b hb) line hline
  have hidle : Idle [] := ⟨[], [], rfl, fun c hc => absurd hc List.not_mem_nil, .inl rfl⟩
  rw [parse_eq_foldl, render, splitOn_ended hlines, List.foldl_append, List.foldl_cons,
    List.foldl_nil, TomlParser.parseLine_idle hidle,
    foldl_blocks hsecs (fun b hb p hp => (hpairs b hb p hp).1), List.nil_append]

/-! ## What is found -/

theorem trimRight_subset (str : List Char) : trimRight str ⊆ str :=
  (List.rdropWhile_prefix isWhitespace str).subset

/-- An opening quote without a closing one stays. -/
theorem unquote_open {rest : List Char} (h : '"' ∉ rest) :
    unquote ('"' :: rest) = '"' :: trimRight rest := by
  have hrest : '"' ∉ trimRight rest := fun hmem => h (trimRight_subset rest hmem)
  have hends : ¬ (('"' :: trimRight rest).length ≥ 2 ∧
      ((('"' :: trimRight rest).head? = some '"' ∧
          ('"' :: trimRight rest).getLast? = some '"') ∨
        (('"' :: trimRight rest).head? = some '\'' ∧
          ('"' :: trimRight rest).getLast? = some '\''))) := by
    rintro ⟨hlen, ⟨-, hlast⟩ | ⟨hhead, -⟩⟩
    · cases hr : trimRight rest with
      | nil =>
        rw [hr] at hlen
        exact absurd hlen (by decide)
      | cons c cs =>
        rw [hr, List.getLast?_cons_cons] at hlast
        exact hrest (hr ▸ List.mem_of_getLast? hlast)
    · exact absurd hhead (by simp)
  rw [unquote, trim_cons (by decide), if_neg hends]

/-- The quotes are taken off if the closing one is still there. -/
theorem unquote_rawValue {value : List Char} (hquote : '"' ∉ value) :
    unquote (rawValue value) = value ↔ '#' ∉ value := by
  by_cases hhash : '#' ∈ value
  · refine ⟨fun h => ?_, fun h => absurd hhash h⟩
    have hfront : '"' ∉ trimRight (value.takeWhile fun c => c ≠ '#') :=
      fun hmem => hquote (List.takeWhile_subset _ (trimRight_subset _ hmem))
    rw [rawValue, if_pos hhash, unquote_open hfront] at h
    -- what is read has a quote, and the value has none
    exact absurd (h ▸ List.mem_cons_self ..) hquote
  · refine ⟨fun _ => hhash, fun _ => ?_⟩
    have hends : (quoted value).length ≥ 2 ∧
        (((quoted value).head? = some '"' ∧ (quoted value).getLast? = some '"') ∨
          ((quoted value).head? = some '\'' ∧ (quoted value).getLast? = some '\'')) :=
      ⟨by simp [quoted], .inl ⟨rfl, by rw [quoted, List.getLast?_concat]⟩⟩
    rw [rawValue, if_neg hhash, unquote, trim_quoted, if_pos hends]
    simp [quoted, substr]

/-- Among settings of different names each is the first of its name. -/
theorem firstOf_setting {settings : List Setting}
    (hdistinct : (settings.map fun s => (s.sectionName, s.key)).Nodup) {s : Setting}
    (hs : s ∈ settings) :
    TomlParseResult.firstOf ⟨settings.map fun s => entryOf s.sectionName s.key s.value⟩
        s.sectionName s.key =
      some (entryOf s.sectionName s.key s.value) := by
  rw [TomlParseResult.firstOf]
  induction settings with
  | nil => cases hs
  | cons s' settings ih =>
    rw [List.map_cons, List.nodup_cons] at hdistinct
    rw [List.map_cons, List.find?_cons]
    rcases List.mem_cons.mp hs with rfl | hs
    · simp [entryOf]
    · have hother : (s'.sectionName == s.sectionName && s'.key == s.key) = false := by
        rw [Bool.eq_false_iff]
        intro hsame
        simp only [Bool.and_eq_true, beq_iff_eq] at hsame
        refine hdistinct.1 (List.mem_map.mpr ⟨s, hs, ?_⟩)
        rw [hsame.1, hsame.2]
      have hskip : ((entryOf s'.sectionName s'.key s'.value).sectionName == s.sectionName &&
          (entryOf s'.sectionName s'.key s'.value).key == s.key) = false := hother
      rw [hskip]
      exact ih hdistinct.2 hs

theorem findString_setting {settings : List Setting}
    (hdistinct : (settings.map fun s => (s.sectionName, s.key)).Nodup) {s : Setting}
    (hs : s ∈ settings) (hplain : s.Plain) {res : TomlParseResult}
    (hres : res.entries = settings.map fun s => entryOf s.sectionName s.key s.value) :
    res.findString s.name = some s.value ↔ '#' ∉ s.value := by
  obtain ⟨entries⟩ := res
  cases hres
  have hsplit : splitName s.name = (s.sectionName, s.key) :=
    splitName_dot (hplain.1.not_mem (by decide)) s.key
  rw [TomlParseResult.findString, TomlParseResult.findEntry_eq, hsplit,
    firstOf_setting hdistinct hs, Option.map_some, Option.some.injEq]
  exact unquote_rawValue hplain.2.2.2

/-- With room for all entries the parser of the build finds what the other one finds. -/
theorem findString_fits {maxEntries : Nat} {content : List Char}
    (h : (TomlParser.parse content).entries.length ≤ maxEntries) (fullKey : List Char) :
    (CompileTimeTomlParser.parse maxEntries content).findString fullKey =
      (TomlParser.parse content).findString fullKey := by
  have hfound := findEntry_restrict maxEntries content fullKey
  have hall : (TomlParser.parse content).restrict maxEntries = TomlParser.parse content := by
    rw [TomlParseResult.restrict, List.take_of_length_le h]
  rw [hall] at hfound
  rw [TomlParseResult.findString, hfound, Option.map_map]
  rfl

/-- **Quoted values.** Of settings with different names, written as quoted values in any order of
blocks, those are read back as written that have no `#` in their value, and no others. -/
theorem quoted_read_back_iff (settings : List Setting) (blocks : List Block)
    (hplain : ∀ s ∈ settings, s.Plain)
    (hdistinct : (settings.map fun s => (s.sectionName, s.key)).Nodup)
    (hsections : ∀ b ∈ blocks, Word b.sectionName)
    (hblocks : blocks.flatMap Block.settings = settings) :
    ∀ s ∈ settings,
      ((TomlParser.parse (render blocks)).findString s.name = some s.value ↔ '#' ∉ s.value) ∧
        ∀ maxEntries ≥ settings.length,
          (CompileTimeTomlParser.parse maxEntries (render blocks)).findString s.name =
            some s.value ↔ '#' ∉ s.value := by
  subst hblocks
  intro s hs
  have hparse := parse_render hsections hplain
  have hfound := findString_setting hdistinct hs (hplain s hs) hparse
  refine ⟨hfound, fun maxEntries hroom => ?_⟩
  have hfits : (TomlParser.parse (render blocks)).entries.length ≤ maxEntries := by
    rw [hparse, List.length_map]
    exact hroom
  rw [findString_fits hfits, hfound]

/-- Blanks, an equals sign and brackets in a value do no harm. -/
theorem quoted_read_back_iff_blanks :
    (TomlParser.parse "[log]\nlevel = \" = [a] 'b' \"\n".toList).findString "log.level".toList =
      some " = [a] 'b' ".toList := by
  have hsec : Word "log".toList := ⟨by decide, List.all_eq_true.mp (by decide)⟩
  have hkey : Word "level".toList := ⟨by decide, List.all_eq_true.mp (by decide)⟩
  have hfound := (quoted_read_back_iff [⟨"log".toList, "level".toList, " = [a] 'b' ".toList⟩]
    [⟨"log".toList, [("level".toList, " = [a] 'b' ".toList)]⟩]
    (fun s hs => by
      rw [List.mem_singleton.mp hs]
      exact ⟨hsec, hkey, by decide, by decide⟩)
    (by decide) (fun b hb => by rw [List.mem_singleton.mp hb]; exact hsec) (by decide) _
    (List.mem_singleton.mpr rfl)).1
  exact hfound.mpr (by decide)

/-- Of a value with a `#` only the front is read, with the opening quote. -/
theorem hash_value_cut :
    render [⟨['a'], [(['b'], "x#y".toList)]⟩] = "[a]\nb = \"x#y\"\n".toList ∧
      (⟨['a'], ['b'], "x#y".toList⟩ : Setting).Plain ∧
      (TomlParser.parse "[a]\nb = \"x#y\"\n".toList).findString "a.b".toList =
        some "\"x".toList := by
  have hsec : Word ['a'] := ⟨by decide, List.all_eq_true.mp (by decide)⟩
  have hkey : Word ['b'] := ⟨by decide, List.all_eq_true.mp (by decide)⟩
  refine ⟨by decide, ⟨hsec, hkey, by decide, by decide⟩, ?_⟩
  rw [parse_eq_foldl]
  decide

end Highp.Config
