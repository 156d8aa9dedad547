import Highp.Lib.Json

/-! JSON Lines: a file with one object in each line. -/

namespace Highp.Lib.Json

/-- The objects of a file; empty lines are skipped. -/
def lines (file : List Char) : Option (List (List (List Char × Value))) :=
  ((file.splitOn '\n').filter fun line => !line.isEmpty).mapM split

/-! ## Lines -/

theorem flatMap_newline (texts : List (List Char)) :
    texts.flatMap (· ++ ['\n']) = ['\n'].intercalate (texts ++ [[]]) := by
  induction texts with
  | nil => rfl
  | cons text texts ih =>
    rw [List.flatMap_cons, ih, List.cons_append, List.intercalate_cons_of_ne_nil (by simp)]

theorem splitOn_lines {texts : List (List Char)} (h : ∀ text ∈ texts, '\n' ∉ text) :
    (texts.flatMap (· ++ ['\n'])).splitOn '\n' = texts ++ [[]] := by
  rw [flatMap_newline]
  refine List.splitOn_intercalate '\n' ?_ (by simp)
  intro text htext
  rcases List.mem_append.mp htext with htext | htext
  · exact h text htext
  · simp only [List.mem_singleton] at htext
    simp [htext]

theorem filter_lines {texts : List (List Char)} (hline : ∀ text ∈ texts, '\n' ∉ text ∧ text ≠ []) :
    (((texts.flatMap (· ++ ['\n'])).splitOn '\n').filter fun line => !line.isEmpty) = texts := by
  rw [splitOn_lines fun text htext => (hline text htext).1, List.filter_append,
    List.filter_eq_self.mpr fun text htext => by simpa using (hline text htext).2]
  simp

theorem lines_of_split {texts : List (List Char)} {objects : List (List (List Char × Value))}
    (hline : ∀ text ∈ texts, '\n' ∉ text ∧ text ≠ [])
    (h : List.Forall₂ (fun text fields => split text = some fields) texts objects) :
    lines (texts.flatMap (· ++ ['\n'])) = some objects := by
  rw [lines, filter_lines hline]
  clear hline
  induction h with
  | nil => rfl
  | cons h _ ih =>
    rw [List.mapM_cons, h, ih]
    rfl

/-- One line that is no object spoils the file. -/
theorem lines_eq_none {texts : List (List Char)} (hline : ∀ text ∈ texts, '\n' ∉ text ∧ text ≠ [])
    {text : List Char} (htext : text ∈ texts) (h : split text = none) :
    lines (texts.flatMap (· ++ ['\n'])) = none := by
  rw [lines, filter_lines hline]
  clear hline
  induction texts with
  | nil => cases htext
  | cons first texts ih =>
    rw [List.mapM_cons]
    cases hfirst : split first with
    | none => rfl
    | some fields =>
      rcases List.mem_cons.mp htext with rfl | htext
      · exact absurd (h.symm.trans hfirst) (by simp)
      · rw [ih htext]
        rfl

/-! ## Members without blanks -/

/-- The text is one member, if something other than a number follows. -/
def IsMember (text : List Char) (field : List Char × Value) : Prop :=
  ∀ (next : Char) (rest : List Char) (tokens : List Token), isNumberChar next = false →
    Reads (next :: rest) tokens →
    Reads (text ++ next :: rest) (.value (.text field.1) :: .mark ':' :: .value field.2 :: tokens)

theorem reads_name {name : List Char} (h : ∀ ch ∈ name, Plain ch) :
    Reads ('"' :: name ++ ['"'] ++ [':']) [.value (.text name), .mark ':'] :=
  (Reads.text (.self h)).append (.mark rfl rfl)

theorem IsMember.text {name raw value : List Char} (hname : ∀ ch ∈ name, Plain ch)
    (h : Represents raw value) :
    IsMember ('"' :: name ++ ['"'] ++ [':'] ++ ('"' :: raw ++ ['"'])) (name, .text value) := by
  intro next rest tokens _ hrest
  exact ((reads_name hname).append (.text h)).append hrest

theorem IsMember.number {name literal : List Char} (hname : ∀ ch ∈ name, Plain ch)
    (hne : literal ≠ []) (hliteral : ∀ ch ∈ literal, isNumberChar ch = true) :
    IsMember ('"' :: name ++ ['"'] ++ [':'] ++ literal) (name, .number literal) := by
  intro next rest tokens hnext hrest
  obtain ⟨ch, literal, rfl⟩ := List.exists_cons_of_ne_nil hne
  rw [List.forall_mem_cons] at hliteral
  rw [List.append_assoc]
  exact (reads_name hname).append (.number hliteral.1 hliteral.2 hnext hrest)

theorem reads_members {texts : List (List Char)} {fields : List (List Char × Value)}
    (h : List.Forall₂ IsMember texts fields) (hne : fields ≠ []) :
    Reads ([','].intercalate texts ++ ['\x7d']) (memberTokens fields) := by
  induction h with
  | nil => exact absurd rfl hne
  | @cons text field texts fields hmember hrest ih =>
    have hclose : Reads ['\x7d'] [.mark '\x7d'] := .mark rfl rfl
    cases hrest with
    | nil =>
      rw [List.intercalate_singleton]
      exact hmember _ _ _ rfl hclose
    | @cons text' field' texts fields hmember' hrest =>
      rw [List.intercalate_cons_cons, List.append_assoc, List.append_assoc]
      exact hmember _ _ _ rfl (Reads.append (.mark rfl rfl) (ih (by simp)))

/-- An object on one line. -/
theorem split_object {texts : List (List Char)} {fields : List (List Char × Value)}
    (h : List.Forall₂ IsMember texts fields) (hne : fields ≠ []) :
    split (['\x7b'] ++ [','].intercalate texts ++ ['\x7d']) = some fields := by
  refine split_of_reads hne ?_
  rw [List.append_assoc]
  exact Reads.append (.mark rfl rfl) (reads_members h hne)

end Highp.Lib.Json
