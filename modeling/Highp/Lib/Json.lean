import Mathlib.Algebra.Ring.Parity
import Mathlib.Data.List.DropRight

/-! JSON: what the characters between two quotation marks stand for, and the members of an object
whose values are strings and numbers. -/

namespace Highp.Lib.Json

/-! ## Strings -/

/-- What may follow a backslash, `u` apart, and what it stands for. -/
def shortEscapes : List (Char × Char) :=
  [('"', '"'), ('\\', '\\'), ('/', '/'), ('b', Char.ofNat 8), ('f', Char.ofNat 12), ('n', '\n'),
    ('r', '\r'), ('t', '\t')]

def hexValue (ch : Char) : Option Nat :=
  if 48 ≤ ch.toNat ∧ ch.toNat < 58 then some (ch.toNat - 48)
  else if 97 ≤ ch.toNat ∧ ch.toNat < 103 then some (ch.toNat - 87)
  else if 65 ≤ ch.toNat ∧ ch.toNat < 71 then some (ch.toNat - 55)
  else none

/-- A character that stands for itself. -/
def Plain (ch : Char) : Prop := 0x20 ≤ ch.toNat ∧ ch ≠ '"' ∧ ch ≠ '\\'

instance (ch : Char) : Decidable (Plain ch) := inferInstanceAs (Decidable (_ ∧ _))

/-- `none` if the text is no content of a string. Of the escapes with four digits only those of
bytes are read. -/
def unescape : List Char → Option (List Char)
  | [] => some []
  | ch :: rest =>
    if ch = '\\' then
      match rest with
      | 'u' :: '0' :: '0' :: a :: b :: rest =>
        match hexValue a, hexValue b with
        | some n, some m => (unescape rest).map (Char.ofNat (16 * n + m) :: ·)
        | _, _ => none
      | letter :: rest =>
        match shortEscapes.lookup letter with
        | some value => (unescape rest).map (value :: ·)
        | none => none
      | [] => none
    else if Plain ch then (unescape rest).map (ch :: ·)
    else none

/-- How one character is written. -/
inductive Writes : List Char → Char → Prop
  | plain {ch : Char} (h : Plain ch) : Writes [ch] ch
  | short {letter ch : Char} (h : (letter, ch) ∈ shortEscapes) : Writes ['\\', letter] ch
  | hex {a b : Char} {n m : Nat} (ha : hexValue a = some n) (hb : hexValue b = some m) :
    Writes ['\\', 'u', '0', '0', a, b] (Char.ofNat (16 * n + m))

/-- How a string is written. -/
inductive Represents : List Char → List Char → Prop
  | nil : Represents [] []
  | cons {written raw value : List Char} {ch : Char} (h : Writes written ch)
    (hrest : Represents raw value) : Represents (written ++ raw) (ch :: value)

theorem Represents.self {text : List Char} (h : ∀ ch ∈ text, Plain ch) : Represents text text := by
  induction text with
  | nil => exact .nil
  | cons ch rest ih =>
    rw [List.forall_mem_cons] at h
    exact .cons (.plain h.1) (ih h.2)

theorem Represents.flatMap {write : Char → List Char} (h : ∀ ch, Writes (write ch) ch)
    (value : List Char) : Represents (value.flatMap write) value := by
  induction value with
  | nil => exact .nil
  | cons ch rest ih =>
    rw [List.flatMap_cons]
    exact .cons (h ch) ih

theorem unescape_writes {written raw : List Char} {ch : Char} (h : Writes written ch) :
    unescape (written ++ raw) = (unescape raw).map (ch :: ·) := by
  cases h with
  | plain h =>
    rw [List.singleton_append, unescape.eq_def]
    exact (if_neg h.2.2).trans (if_pos h)
  | @short letter _ h =>
    have hletter : ∀ e ∈ shortEscapes, e.1 ≠ 'u' ∧ shortEscapes.lookup e.1 = some e.2 := by decide
    obtain ⟨hu, hlookup⟩ := hletter _ h
    rw [List.cons_append, unescape.eq_def]
    simp [hu, hlookup]
  | hex ha hb =>
    rw [List.cons_append, unescape.eq_def]
    simp [ha, hb]

/-- Reading undoes writing. -/
theorem Represents.unescape {raw value : List Char} (h : Represents raw value) :
    unescape raw = some value := by
  induction h with
  | nil => rfl
  | cons h _ ih => rw [unescape_writes h, ih, Option.map_some]

theorem hexValue_ge {ch : Char} {n : Nat} (h : hexValue ch = some n) : 48 ≤ ch.toNat := by
  unfold hexValue at h
  split at h
  · omega
  · split at h
    · omega
    · split at h
      · omega
      · cases h

theorem Writes.visible {written : List Char} {ch : Char} (h : Writes written ch) :
    ∀ c ∈ written, 0x20 ≤ c.toNat := by
  cases h with
  | plain h => simpa using h.1
  | short h =>
    have hletter : ∀ e ∈ shortEscapes, 0x20 ≤ e.1.toNat := by decide
    simpa using hletter _ h
  | hex ha hb =>
    have ha := hexValue_ge ha
    have hb := hexValue_ge hb
    simp
    omega

/-- No control characters. -/
theorem Represents.visible {raw value : List Char} (h : Represents raw value) :
    ∀ c ∈ raw, 0x20 ≤ c.toNat := by
  induction h with
  | nil => simp
  | cons h _ ih =>
    intro c hc
    rcases List.mem_append.mp hc with hc | hc
    · exact h.visible c hc
    · exact ih c hc

/-! ### Quotation marks -/

/-- The number of backslashes at the end. -/
def backslashes (text : List Char) : Nat := (text.rtakeWhile (· == '\\')).length

theorem backslashes_concat (text : List Char) (ch : Char) :
    backslashes (text ++ [ch]) = if ch = '\\' then backslashes text + 1 else 0 := by
  rw [backslashes, List.rtakeWhile_concat]
  by_cases h : ch = '\\'
  · simp [h, backslashes]
  · simp [h]

/-- An even number of backslashes in front makes no difference. -/
theorem odd_backslashes_append {front : List Char} (h : Even (backslashes front))
    (text : List Char) : Odd (backslashes (front ++ text)) ↔ Odd (backslashes text) := by
  induction text using List.reverseRecOn with
  | nil =>
    rw [List.append_nil]
    exact ⟨fun ho => absurd h (Nat.not_even_iff_odd.mpr ho), fun ho => absurd ho (by decide)⟩
  | append_singleton text ch ih =>
    rw [← List.append_assoc, backslashes_concat, backslashes_concat]
    by_cases hch : ch = '\\'
    · rw [if_pos hch, if_pos hch, Nat.odd_add_one, Nat.odd_add_one, ih]
    · rw [if_neg hch, if_neg hch]

theorem Writes.even_backslashes {written : List Char} {ch : Char} (h : Writes written ch) :
    Even (backslashes written) := by
  cases h with
  | plain h => simp [backslashes, List.rtakeWhile, h.2.2]
  | short h =>
    have hletter : ∀ e ∈ shortEscapes, Even (backslashes ['\\', e.1]) := by decide
    exact hletter _ h
  | @hex a b n m ha hb =>
    have hne : b ≠ '\\' := by
      rintro rfl
      cases hb
    simp [backslashes, List.rtakeWhile, hne]

/-- A quotation mark in a written character is the letter of an escape. -/
theorem Writes.quote {written : List Char} {ch : Char} (h : Writes written ch)
    {before after : List Char} (heq : written = before ++ '"' :: after) :
    Odd (backslashes before) := by
  cases h with
  | plain h =>
    rcases before with _ | ⟨c, before⟩
    · simp only [List.nil_append, List.cons.injEq] at heq
      exact absurd heq.1 h.2.1
    · simp at heq
  | short h =>
    rcases before with _ | ⟨c, _ | ⟨d, before⟩⟩
    · simp at heq
    · simp only [List.cons_append, List.cons.injEq] at heq
      rw [← heq.1]
      decide
    · simp at heq
  | @hex a b n m ha hb =>
    have hmem : '"' ∈ ['\\', 'u', '0', '0', a, b] := by simp [heq]
    simp only [List.mem_cons, List.not_mem_nil, or_false] at hmem
    rcases hmem with h | h | h | h | rfl | rfl
    · exact absurd h (by decide)
    · exact absurd h (by decide)
    · exact absurd h (by decide)
    · exact absurd h (by decide)
    · cases ha
    · cases hb

/-- Every quotation mark is escaped. -/
theorem Represents.quote {raw value : List Char} (h : Represents raw value) :
    ∀ before after, raw = before ++ '"' :: after → Odd (backslashes before) := by
  induction h with
  | nil =>
    intro before after heq
    simp at heq
  | @cons written raw value ch h _ ih =>
    intro before after heq
    rcases List.append_eq_append_iff.mp heq with ⟨front, rfl, hraw⟩ | ⟨front, rfl, hq⟩
    · exact (odd_backslashes_append h.even_backslashes front).mpr (ih front after hraw)
    · rcases front with _ | ⟨c, front⟩
      · exact absurd (ih [] after hq.symm) (by decide)
      · rw [List.cons_append, List.cons.injEq] at hq
        obtain ⟨rfl, rfl⟩ := hq
        exact h.quote rfl

/-! ## Objects -/

inductive Value
  | text (value : List Char)
  | number (literal : List Char)
  deriving DecidableEq

/-- A mark is a brace, a colon or a comma. -/
inductive Token
  | mark (ch : Char)
  | value (v : Value)
  deriving DecidableEq

/-- Where the reader is: between tokens, in a number, in a string, or behind a backslash in a
string. -/
inductive Mode
  | between
  | number (literal : List Char)
  | string (raw : List Char)
  | escape (raw : List Char)

def isBlank (ch : Char) : Bool := [' ', '\n', '\r', '\t'].contains ch

def isMark (ch : Char) : Bool := ['\x7b', '\x7d', ':', ','].contains ch

def isNumberChar (ch : Char) : Bool := ch.isDigit || ['+', '-', '.', 'e', 'E'].contains ch

def between (tokens : List Token) (ch : Char) : Option (Mode × List Token) :=
  if isBlank ch then some (.between, tokens)
  else if isMark ch then some (.between, tokens ++ [.mark ch])
  else if isNumberChar ch then some (.number [ch], tokens)
  else if ch = '"' then some (.string [], tokens)
  else none

def step : Mode × List Token → Char → Option (Mode × List Token)
  | (.between, tokens), ch => between tokens ch
  | (.number literal, tokens), ch =>
    if isNumberChar ch then some (.number (literal ++ [ch]), tokens)
    else between (tokens ++ [.value (.number literal)]) ch
  | (.string raw, tokens), ch =>
    if ch = '\\' then some (.escape raw, tokens)
    else if ch = '"' then
      (unescape raw).map fun value => (.between, tokens ++ [.value (.text value)])
    else some (.string (raw ++ [ch]), tokens)
  | (.escape raw, tokens), ch => some (.string (raw ++ ['\\', ch]), tokens)

def members : List Token → Option (List (List Char × Value))
  | [.value (.text name), .mark ':', .value v, .mark '\x7d'] => some [(name, v)]
  | .value (.text name) :: .mark ':' :: .value v :: .mark ',' :: rest =>
    (members rest).map ((name, v) :: ·)
  | _ => none

def object : List Token → Option (List (List Char × Value))
  | [.mark '\x7b', .mark '\x7d'] => some []
  | .mark '\x7b' :: rest => members rest
  | _ => none

/-- The members of an object. -/
def split (text : List Char) : Option (List (List Char × Value)) :=
  match text.foldlM step (.between, []) with
  | some (.between, tokens) => object tokens
  | _ => none

/-! ### Ends -/

/-- The members end with the brace: nothing that follows belongs to them. -/
theorem members_front {ts us : List Token} {a b : List (List Char × Value)}
    (h : members ts = some a) (h' : members (ts ++ us) = some b) : us = [] := by
  fun_induction members ts generalizing a b with
  | case1 name v =>
    cases us with
    | nil => rfl
    | cons u us => simp [members] at h'
  | case2 name v rest ih =>
    obtain ⟨a', ha', -⟩ := Option.map_eq_some_iff.mp h
    simp only [List.cons_append, members] at h'
    obtain ⟨b', hb', -⟩ := Option.map_eq_some_iff.mp h'
    exact ih ha' hb'
  | case3 => cases h

theorem object_front {ts us : List Token} {a b : List (List Char × Value)}
    (h : object ts = some a) (h' : object (ts ++ us) = some b) : us = [] := by
  unfold object at h
  split at h
  · cases us with
    | nil => rfl
    | cons u us => simp [object, members] at h'
  · rename_i rest hrest
    rw [List.cons_append, object] at h'
    · exact members_front h h'
    · intro heq
      cases rest with
      | nil => cases h
      | cons t rest =>
        obtain ⟨rfl, hnil⟩ := List.cons.inj heq
        rw [(List.append_eq_nil_iff.mp hnil).1] at hrest
        exact hrest rfl
  · cases h

/-- No object is another one without its closing brace. -/
theorem split_unclosed {text : List Char} {fields : List (List Char × Value)}
    (h : split (text ++ ['\x7d']) = some fields) : split text = none := by
  rw [split, List.foldlM_append] at h
  unfold split
  cases hs : text.foldlM step (.between, []) with
  | none => rfl
  | some s =>
    obtain ⟨mode, tokens⟩ := s
    cases mode with
    | between =>
      rw [hs] at h
      change object (tokens ++ [.mark '\x7d']) = some fields at h
      cases ho : object tokens with
      | none => exact ho
      | some a => exact absurd (object_front ho h) (List.cons_ne_nil _ _)
    | number literal => rfl
    | string raw => rfl
    | escape raw => rfl

/-! ### Reading -/

/-- The text is made up of these tokens. -/
def Reads (text : List Char) (tokens : List Token) : Prop :=
  ∀ front, text.foldlM step (.between, front) = some (.between, front ++ tokens)

theorem foldlM_cons_of_step {s t : Mode × List Token} {ch : Char} (h : step s ch = some t)
    (rest : List Char) : (ch :: rest).foldlM step s = rest.foldlM step t := by
  rw [List.foldlM_cons, h]
  rfl

theorem Reads.nil : Reads [] [] := fun front => by rw [List.append_nil]; rfl

theorem Reads.append {x y : List Char} {ts us : List Token} (hx : Reads x ts) (hy : Reads y us) :
    Reads (x ++ y) (ts ++ us) := by
  intro front
  rw [List.foldlM_append, hx front, ← List.append_assoc]
  exact hy (front ++ ts)

theorem Reads.blank {ch : Char} (h : isBlank ch = true) : Reads [ch] [] := by
  intro front
  rw [List.append_nil]
  simp [step, between, h]

theorem Reads.mark {ch : Char} (hblank : isBlank ch = false) (h : isMark ch = true) :
    Reads [ch] [.mark ch] := by
  intro front
  simp [step, between, hblank, h]

theorem foldlM_writes {written : List Char} {ch : Char} (h : Writes written ch)
    (raw : List Char) (tokens : List Token) :
    written.foldlM step (.string raw, tokens) = some (.string (raw ++ written), tokens) := by
  cases h with
  | plain h => simp [step, h.2.1, h.2.2]
  | short h => simp [step]
  | @hex a b n m ha hb =>
    have hplain : ∀ {c k}, hexValue c = some k → c ≠ '\\' ∧ c ≠ '"' := by
      intro c k hc
      constructor
      · rintro rfl
        cases hc
      · rintro rfl
        cases hc
    simp [step, hplain ha, hplain hb]

theorem foldlM_represents {raw value : List Char} (h : Represents raw value)
    (front : List Char) (tokens : List Token) :
    raw.foldlM step (.string front, tokens) = some (.string (front ++ raw), tokens) := by
  induction h generalizing front with
  | nil =>
    rw [List.append_nil]
    rfl
  | @cons written raw _ _ h _ ih =>
    rw [List.foldlM_append, foldlM_writes h, ← List.append_assoc]
    exact ih (front ++ written)

/-- A string between quotation marks. -/
theorem Reads.text {raw value : List Char} (h : Represents raw value) :
    Reads ('"' :: raw ++ ['"']) [.value (.text value)] := by
  intro front
  have hopen : step (.between, front) '"' = some (.string [], front) := rfl
  rw [List.cons_append, foldlM_cons_of_step hopen, List.foldlM_append, foldlM_represents h]
  simp [step, h.unescape]

theorem foldlM_number {literal : List Char} (h : ∀ ch ∈ literal, isNumberChar ch = true)
    (front : List Char) (tokens : List Token) :
    literal.foldlM step (.number front, tokens) = some (.number (front ++ literal), tokens) := by
  induction literal generalizing front with
  | nil =>
    rw [List.append_nil]
    rfl
  | cons ch rest ih =>
    rw [List.forall_mem_cons] at h
    have hstep : step (.number front, tokens) ch = some (.number (front ++ [ch]), tokens) :=
      if_pos h.1
    rw [foldlM_cons_of_step hstep, ih h.2, List.append_assoc, List.singleton_append]

theorem not_number_of_mem {others : List Char} (h : others.any isNumberChar = false)
    {ch : Char} (hch : isNumberChar ch = true) : others.contains ch = false := by
  rw [List.contains_eq_mem, decide_eq_false_iff_not]
  intro hm
  exact List.any_eq_false.mp h ch hm hch

/-- A number ends where something else begins. -/
theorem Reads.number {ch next : Char} {literal text : List Char} {tokens : List Token}
    (hch : isNumberChar ch = true) (hliteral : ∀ ch ∈ literal, isNumberChar ch = true)
    (hnext : isNumberChar next = false) (h : Reads (next :: text) tokens) :
    Reads (ch :: literal ++ next :: text) (.value (.number (ch :: literal)) :: tokens) := by
  intro front
  have hblank : isBlank ch = false := not_number_of_mem rfl hch
  have hmark : isMark ch = false := not_number_of_mem rfl hch
  have hfirst : step (.between, front) ch = some (.number [ch], front) := by
    simp [step, between, hblank, hmark, hch]
  have hafter : step (.number ([ch] ++ literal), front) next =
      step (.between, front ++ [.value (.number (ch :: literal))]) next := by
    simp [step, hnext]
  rw [List.cons_append, foldlM_cons_of_step hfirst, List.foldlM_append, foldlM_number hliteral]
  change (next :: text).foldlM step (.number ([ch] ++ literal), front) = _
  rw [List.foldlM_cons, hafter, ← List.foldlM_cons, h, List.append_assoc, List.singleton_append]

/-- The tokens of an object, behind the brace. -/
def memberTokens : List (List Char × Value) → List Token
  | [] => [.mark '\x7d']
  | [(name, v)] => [.value (.text name), .mark ':', .value v, .mark '\x7d']
  | (name, v) :: rest =>
    .value (.text name) :: .mark ':' :: .value v :: .mark ',' :: memberTokens rest

/-- One member is put in front of others. -/
theorem Reads.member {line text name : List Char} {v : Value}
    {field : List Char × Value} {fields : List (List Char × Value)}
    (hline : Reads line [.value (.text name), .mark ':', .value v, .mark ','])
    (h : Reads text (memberTokens (field :: fields))) :
    Reads (line ++ text) (memberTokens ((name, v) :: field :: fields)) := hline.append h

theorem members_memberTokens {fields : List (List Char × Value)} (h : fields ≠ []) :
    members (memberTokens fields) = some fields := by
  induction fields with
  | nil => exact absurd rfl h
  | cons field rest ih =>
    rcases rest with _ | ⟨field', rest⟩
    · rfl
    · rw [memberTokens, members, ih (by simp), Option.map_some]
      simp

theorem split_of_reads {text : List Char} {fields : List (List Char × Value)} (hne : fields ≠ [])
    (h : Reads text (.mark '\x7b' :: memberTokens fields)) : split text = some fields := by
  have hobject : object (.mark '\x7b' :: memberTokens fields) = some fields := by
    rcases fields with _ | ⟨field, _ | ⟨field', rest⟩⟩
    · exact absurd rfl hne
    · rfl
    · exact members_memberTokens hne
  rw [split, h []]
  exact hobject

end Highp.Lib.Json
