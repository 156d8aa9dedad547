import Highp.Config.Toml

/-! The lines of a configuration file, and what of its layout `TomlParser::Parse` does not see. -/

namespace Highp.Config

/-! ## Line by line -/

namespace TomlParser

/-- `Parse` with another section than none to begin with. -/
def parseIn (currentSection content : List Char) : TomlParseResult :=
  loop content 0 ⟨[]⟩ currentSection

/-- The section that is current at the end of a text. -/
def sectionAfter (currentSection content : List Char) : List Char :=
  ((content.splitOn '\n').foldl parseLine (⟨[]⟩, currentSection)).2

/-- The loop of `Parse`, with at most so many passes. -/
def loopWithin : Nat → List Char → Nat → TomlParseResult → List Char → Option TomlParseResult
  | 0, _, _, _, _ => none
  | passes + 1, content, lineStart, res, currentSection =>
    if lineStart < content.length then
      let line := lineAt content lineStart
      let next := lineEnd content lineStart + 1
      if line.head?.any (fun c => c ≠ '#') then
        if line.head? = some '[' then loopWithin passes content next res (parseSection line)
        else
          match parseKeyValue line currentSection with
          | some entry => loopWithin passes content next (res.add entry) currentSection
          | none => loopWithin passes content next res currentSection
      else loopWithin passes content next res currentSection
    else some res

/-- A pass takes at least one character. -/
theorem loopWithin_eq (content : List Char) (lineStart : Nat) (res : TomlParseResult)
    (currentSection : List Char) : ∀ passes > content.length - lineStart,
    loopWithin passes content lineStart res currentSection =
      some (loop content lineStart res currentSection) := by
  fun_induction loop content lineStart res currentSection with
  | case1 lineStart res currentSection hlt hle line next hany hopen ih =>
    intro passes h
    cases passes with
    | zero => omega
    | succ passes =>
      rw [loopWithin, if_pos hlt]
      simp only [line, next] at hany hopen ih ⊢
      rw [if_pos hany, if_pos hopen]
      exact ih _ (by omega)
  | case2 lineStart res currentSection hlt hle line next hany hopen entry hkv ih =>
    intro passes h
    cases passes with
    | zero => omega
    | succ passes =>
      rw [loopWithin, if_pos hlt]
      simp only [line, next] at hany hopen hkv ih ⊢
      rw [if_pos hany, if_neg hopen, hkv]
      exact ih _ (by omega)
  | case3 lineStart res currentSection hlt hle line next hany hopen hkv ih =>
    intro passes h
    cases passes with
    | zero => omega
    | succ passes =>
      rw [loopWithin, if_pos hlt]
      simp only [line, next] at hany hopen hkv ih ⊢
      rw [if_pos hany, if_neg hopen, hkv]
      exact ih _ (by omega)
  | case4 lineStart res currentSection hlt hle line next hany ih =>
    intro passes h
    cases passes with
    | zero => omega
    | succ passes =>
      rw [loopWithin, if_pos hlt]
      simp only [line, next] at hany ih ⊢
      rw [if_neg hany]
      exact ih _ (by omega)
  | case5 lineStart res currentSection hlt =>
    intro passes h
    cases passes with
    | zero => omega
    | succ passes => rw [loopWithin, if_neg hlt]

/-- A line adds to the entries and does not look at them. -/
theorem parseLine_entries (entries : List TomlEntry) (currentSection piece : List Char) :
    parseLine (⟨entries⟩, currentSection) piece =
      (⟨entries ++ (parseLine (⟨[]⟩, currentSection) piece).1.entries⟩,
        (parseLine (⟨[]⟩, currentSection) piece).2) := by
  unfold parseLine
  by_cases hany : (trim piece).head?.any (fun c => c ≠ '#') = true
  · rw [if_pos hany, if_pos hany]
    by_cases hopen : (trim piece).head? = some '['
    · rw [if_pos hopen, if_pos hopen, List.append_nil]
    · rw [if_neg hopen, if_neg hopen]
      cases parseKeyValue (trim piece) currentSection with
      | none => simp only [List.append_nil]
      | some entry => rfl
  · rw [if_neg hany, if_neg hany, List.append_nil]

theorem foldl_entries (lines : List (List Char)) (entries : List TomlEntry)
    (currentSection : List Char) :
    lines.foldl parseLine (⟨entries⟩, currentSection) =
      (⟨entries ++ (lines.foldl parseLine (⟨[]⟩, currentSection)).1.entries⟩,
        (lines.foldl parseLine (⟨[]⟩, currentSection)).2) := by
  induction lines generalizing entries currentSection with
  | nil => simp
  | cons line lines ih =>
    rw [List.foldl_cons, List.foldl_cons, parseLine_entries]
    cases parseLine (⟨[]⟩, currentSection) line with
    | mk found next =>
      obtain ⟨found⟩ := found
      rw [ih, ih found, List.append_assoc]

theorem parseIn_eq_foldl (currentSection content : List Char) :
    parseIn currentSection content =
      ((content.splitOn '\n').foldl parseLine (⟨[]⟩, currentSection)).1 := by
  rw [parseIn, loop_eq_foldl, List.drop_zero]

/-- The lines of the first text are those in front of the lines of the second. -/
theorem parseIn_append (currentSection a b : List Char) :
    (parseIn currentSection (a ++ '\n' :: b)).entries =
      (parseIn currentSection a).entries ++
        (parseIn (sectionAfter currentSection a) b).entries := by
  rw [parseIn_eq_foldl, parseIn_eq_foldl, parseIn_eq_foldl, List.splitOn_append_cons_self,
    List.foldl_append, sectionAfter]
  cases (a.splitOn '\n').foldl parseLine (⟨[]⟩, currentSection) with
  | mk res section' =>
    obtain ⟨entries⟩ := res
    rw [foldl_entries]

end TomlParser

/-! ## Layout -/

/-- Nothing but blanks and tabs. -/
def Blank (str : List Char) : Prop := ∀ c ∈ str, c = ' ' ∨ c = '\t'

/-- A blank line, or one that is a comment behind some blanks. -/
def Idle (line : List Char) : Prop :=
  ∃ blanks rest, line = blanks ++ rest ∧ Blank blanks ∧ (rest = [] ∨ rest.head? = some '#')

/-- The same lines with blanks at their ends, and with blank lines and comments among them. -/
inductive Relaid : List (List Char) → List (List Char) → Prop
  | nil : Relaid [] []
  | pad {lines lines' : List (List Char)} (front line back : List Char) :
      Blank front → Blank back → Relaid lines lines' →
      Relaid (line :: lines) ((front ++ line ++ back) :: lines')
  | insert {lines lines' : List (List Char)} (line : List Char) : Idle line →
      Relaid lines lines' → Relaid lines (line :: lines')

/-- Every line break becomes CR LF. -/
def crlf (content : List Char) : List Char :=
  content.flatMap fun c => if c = '\n' then ['\r', '\n'] else [c]

theorem trim_append {back : List Char} (hback : ∀ c ∈ back, isWhitespace c = true)
    (str : List Char) : trim (str ++ back) = trim str := by
  induction back generalizing str with
  | nil => rw [List.append_nil]
  | cons c back ih =>
    rw [List.append_cons, ih (fun d hd => hback d (List.mem_cons_of_mem _ hd)),
      trim_concat (hback c (List.mem_cons_self ..))]

theorem trim_prepend {front : List Char} (hfront : ∀ c ∈ front, isWhitespace c = true)
    (str : List Char) : trim (front ++ str) = trim str := by
  unfold trim trimLeft
  rw [List.dropWhile_append_of_pos hfront]

theorem Blank.whitespace {str : List Char} (h : Blank str) :
    ∀ c ∈ str, isWhitespace c = true := by
  intro c hc
  rcases h c hc with rfl | rfl
  · rfl
  · rfl

/-- A text that begins with no blank is trimmed at its end only. -/
theorem trim_cons {c : Char} (hc : isWhitespace c = false) (str : List Char) :
    trim (c :: str) = c :: trimRight str := by
  unfold trim trimLeft trimRight
  rw [List.dropWhile_cons_of_neg (by simp [hc])]
  induction str using List.reverseRecOn with
  | nil =>
    rw [← List.nil_append [c], List.rdropWhile_concat_neg _ _ _ (by simp [hc])]
    rfl
  | append_singleton str d ih =>
    rw [← List.cons_append]
    cases hd : isWhitespace d with
    | true => rw [List.rdropWhile_concat_pos _ _ _ hd, List.rdropWhile_concat_pos _ _ _ hd, ih]
    | false =>
      rw [List.rdropWhile_concat_neg _ _ _ (by simp [hd]),
        List.rdropWhile_concat_neg _ _ _ (by simp [hd])]
      rfl

namespace TomlParser

/-- A line is trimmed before anything else. -/
theorem parseLine_trim {piece piece' : List Char} (h : trim piece = trim piece')
    (st : TomlParseResult × List Char) : parseLine st piece = parseLine st piece' := by
  unfold parseLine
  rw [h]

theorem parseLine_idle {line : List Char} (h : Idle line) (st : TomlParseResult × List Char) :
    parseLine st line = st := by
  obtain ⟨blanks, rest, rfl, hblanks, hrest⟩ := h
  have htrim : trim (blanks ++ rest) = trim rest := trim_prepend hblanks.whitespace rest
  have hskipped : (trim (blanks ++ rest)).head?.any (fun c => c ≠ '#') = false := by
    rw [htrim]
    rcases hrest with rfl | hhash
    · rfl
    · obtain ⟨comment, rfl⟩ : ∃ comment, rest = '#' :: comment := by
        cases rest with
        | nil => cases hhash
        | cons c comment =>
          cases hhash
          exact ⟨comment, rfl⟩
      rw [trim_cons (by decide)]
      rfl
  unfold parseLine
  rw [if_neg (by rw [hskipped]; exact Bool.false_ne_true)]

theorem foldl_relaid {lines lines' : List (List Char)} (h : Relaid lines lines')
    (st : TomlParseResult × List Char) : lines'.foldl parseLine st = lines.foldl parseLine st := by
  induction h generalizing st with
  | nil => rfl
  | pad front line back hfront hback _ ih =>
    have htrim : trim (front ++ line ++ back) = trim line := by
      rw [trim_append hback.whitespace, trim_prepend hfront.whitespace]
    rw [List.foldl_cons, List.foldl_cons, parseLine_trim htrim, ih]
  | insert line hidle _ ih => rw [List.foldl_cons, parseLine_idle hidle, ih]

end TomlParser

/-- The lines of a text with CR LF are those of the text, some with a CR at their end. -/
theorem crlf_lines (content : List Char) :
    List.Forall₂ (fun line line' => line' = line ∨ line' = line ++ ['\r'])
      (content.splitOn '\n') ((crlf content).splitOn '\n') := by
  induction content with
  | nil => exact .cons (.inl rfl) .nil
  | cons c content ih =>
    by_cases hc : c = '\n'
    · subst hc
      have hcrlf : crlf ('\n' :: content) = ['\r'] ++ '\n' :: crlf content := rfl
      rw [hcrlf, List.splitOn_append_cons_self_of_not_mem (by decide),
        List.splitOn_cons_eq_if_modifyHead]
      exact .cons (.inr rfl) ih
    · have hcrlf : crlf (c :: content) = c :: crlf content := by simp [crlf, hc]
      rw [hcrlf, List.splitOn_cons_eq_if_modifyHead, List.splitOn_cons_eq_if_modifyHead,
        if_neg (by simpa using hc), if_neg (by simpa using hc)]
      generalize content.splitOn '\n' = lines, (crlf content).splitOn '\n' = lines' at ih
      cases ih with
      | nil => exact .nil
      | cons hline hlines =>
        refine .cons ?_ hlines
        rcases hline with hline | hline
        · exact .inl (by rw [hline])
        · exact .inr (by rw [hline]; rfl)

theorem foldl_crlf {lines lines' : List (List Char)}
    (h : List.Forall₂ (fun line line' => line' = line ∨ line' = line ++ ['\r']) lines lines')
    (st : TomlParseResult × List Char) :
    lines'.foldl TomlParser.parseLine st = lines.foldl TomlParser.parseLine st := by
  induction h generalizing st with
  | nil => rfl
  | @cons line line' lines lines' hline _ ih =>
    have htrim : trim line' = trim line := by
      rcases hline with rfl | rfl
      · rfl
      · exact trim_concat (by decide) line
    rw [List.foldl_cons, List.foldl_cons, TomlParser.parseLine_trim htrim, ih]

/-- **Parsing goes line by line and does not see the layout.** It ends after at most as many passes
as there are characters, and one more. -/
theorem parse_line_by_line :
    (∀ content, TomlParser.loopWithin (content.length + 1) content 0 ⟨[]⟩ [] =
      some (TomlParser.parse content)) ∧
    (∀ a b, (TomlParser.parse (a ++ ['\n'] ++ b)).entries = (TomlParser.parse a).entries ++
      (TomlParser.parseIn (TomlParser.sectionAfter [] a) b).entries) ∧
    (∀ content, (TomlParser.parse (crlf content)).entries = (TomlParser.parse content).entries) ∧
    ∀ content content', Relaid (content.splitOn '\n') (content'.splitOn '\n') →
      (TomlParser.parse content').entries = (TomlParser.parse content).entries := by
  refine ⟨fun content => ?_, fun a b => ?_, fun content => ?_, fun content content' hrelaid => ?_⟩
  · exact TomlParser.loopWithin_eq content 0 ⟨[]⟩ [] _ (by omega)
  · rw [List.append_assoc]
    exact TomlParser.parseIn_append [] a b
  · rw [parse_eq_foldl, parse_eq_foldl, foldl_crlf (crlf_lines content)]
  · rw [parse_eq_foldl, parse_eq_foldl, TomlParser.foldl_relaid hrelaid]

/-- A blank, a comment and some tabs more. -/
theorem parse_line_by_line_relaid :
    (TomlParser.parse "# ports\n\t[a]\n \nb = 1 \t\nc=2".toList).entries =
      (TomlParser.parse "[a]\nb = 1\nc=2".toList).entries := by
  have hblank : Blank [] := fun c hc => absurd hc List.not_mem_nil
  have hspace : Blank [' '] := fun c hc => .inl (List.mem_singleton.mp hc)
  have htab : Blank ['\t'] := fun c hc => .inr (List.mem_singleton.mp hc)
  have hend : Blank [' ', '\t'] := by
    intro c hc
    rcases List.mem_cons.mp hc with rfl | hc
    · exact .inl rfl
    · exact htab c hc
  have hcomment : Idle "# ports".toList := ⟨[], _, rfl, hblank, .inr rfl⟩
  have hidle : Idle [' '] := ⟨[' '], [], rfl, hspace, .inl rfl⟩
  have hrelaid : Relaid ["[a]".toList, "b = 1".toList, "c=2".toList]
      ["# ports".toList, "\t[a]".toList, [' '], "b = 1 \t".toList, "c=2".toList] :=
    .insert _ hcomment (.pad ['\t'] _ [] htab hblank (.insert _ hidle
      (.pad [] _ [' ', '\t'] hblank hend (.pad [] _ [] hblank hblank .nil))))
  exact parse_line_by_line.2.2.2 _ _ hrelaid

end Highp.Config
