import Highp.Config.Generators

/-! Which defaults the generated header has, against what the program reads from the file. -/

namespace Highp.Config

/-! ## What the compiler reads -/

def isOctalDigit (c : Char) : Bool := '0' ≤ c && c ≤ '7'

def numeral (base : Nat) (digits : List Char) : Nat :=
  digits.foldl (fun m c => m * base + (c.toNat - '0'.toNat)) 0

/-- An integer literal: octal behind a leading zero, and no larger than its types go. -/
def integerLiteral (digits : List Char) : Option Nat :=
  if digits = [] ∨ digits.all isDigit = false then none
  else if digits.head? = some '0' then
    if digits.all isOctalDigit = true ∧ numeral 8 digits < 2 ^ 64 then some (numeral 8 digits)
    else none
  else if numeral 10 digits < 2 ^ 63 then some (numeral 10 digits)
  else none

/-- The value of an `int` that is initialised with a literal, which may have a minus in front. -/
def constantValue (text : List Char) : Option Int :=
  (integerLiteral (magnitude text)).map fun (m : Nat) =>
    wrap 32 (if text.head? = some '-' then -(m : Int) else m)

def defaultsOf (structs : List Struct) (sectionName key : List Char) : List Member :=
  (structs.filter fun s => s.sectionName == sectionName).flatMap fun s =>
    s.defaults.filter fun m => m.key == key

/-- A member of integer type, of that name and that value. -/
def Member.Holds (m : Member) (camelCase : List Char) (n : Int) : Prop :=
  m.camelCase = camelCase ∧ (m.cppType = "int".toList ∨ m.cppType = "INT".toList) ∧
    constantValue m.value = some n

/-- There is a default for the key, and every one is that integer. -/
def Emits (structs : List Struct) (camelCase sectionName key : List Char) (n : Int) : Prop :=
  defaultsOf structs sectionName key ≠ [] ∧
    ∀ m ∈ defaultsOf structs sectionName key, m.Holds camelCase n

/-! ## Where a script finds the key -/

section
variable (same : List Char → List Char → Bool) (events : List Event) (sectionName : List Char)

/-- The spelling of the first header of the section. -/
def firstHeader : Option (List Char) :=
  events.findSome? fun e =>
    match e with
    | .header name => if same name sectionName then some name else none
    | _ => none

/-- The last header is one of the section. -/
def Opened : Prop :=
  ∃ above name between, events = above ++ .header name :: between ∧
    same name sectionName = true ∧ ∀ name', .header name' ∉ between

/-- The line stands in the section, whose header does not come again. -/
def Attributed (key value : List Char) : Prop :=
  ∃ above below, events = above ++ .pair key value :: below ∧ Opened same above sectionName ∧
    ∀ name, .header name ∈ below → same name sectionName = false

/-- The section is first spelled that way, the key has a line in it, and whatever such a line has
for its value is that integer to the compiler. -/
def ReadAlike (key : List Char) (n : Int) : Prop :=
  firstHeader same events sectionName = some sectionName ∧
    (∃ value, Attributed same events sectionName key value) ∧
    ∀ value, Attributed same events sectionName key value → constantValue value = some n

/-- The part of a script's state that has to do with one section. -/
structure Focus where
  stored : Option (List Char)
  active : Bool
  pairs : List (List Char × List Char)

def Focus.step (f : Focus) : Event → Focus
  | .header name =>
    if same name sectionName then ⟨f.stored.or (some name), true, []⟩
    else { f with active := false }
  | .pair key value => if f.active then { f with pairs := f.pairs ++ [(key, value)] } else f
  | .nothing => f

def focus : Focus := events.foldl (Focus.step same sectionName) ⟨none, false, []⟩

end

section
variable {same : List Char → List Char → Bool} {events : List Event} {sectionName : List Char}

theorem focus_concat (e : Event) : focus same (events ++ [e]) sectionName =
    (focus same events sectionName).step same sectionName e := by
  simp [focus]

/-- An occurrence in a longer list is the last place or an occurrence before. -/
theorem concat_eq_append_cons {α : Type} {xs above below : List α} {e x : α} :
    xs ++ [e] = above ++ x :: below ↔
      (xs = above ∧ e = x ∧ below = []) ∨
        ∃ below', below = below' ++ [e] ∧ xs = above ++ x :: below' := by
  constructor
  · intro h
    rcases List.eq_nil_or_concat below with rfl | ⟨below', y, rfl⟩
    · obtain ⟨hxs, he⟩ := List.append_inj' h rfl
      exact Or.inl ⟨hxs, List.singleton_inj.mp he, rfl⟩
    · rw [List.concat_eq_append, ← List.cons_append, ← List.append_assoc] at h
      obtain ⟨hxs, he⟩ := List.append_inj' h rfl
      refine Or.inr ⟨below', ?_, hxs⟩
      rw [List.concat_eq_append, List.singleton_inj.mp he]
  · rintro (⟨rfl, rfl, rfl⟩ | ⟨below', rfl, rfl⟩)
    · rfl
    · simp

theorem focus_stored (events : List Event) :
    (focus same events sectionName).stored = firstHeader same events sectionName := by
  induction events using List.reverseRecOn with
  | nil => rfl
  | append_singleton events e ih =>
    rw [focus_concat, firstHeader, List.findSome?_append, ← firstHeader, ← ih]
    cases e with
    | header name =>
      by_cases h : same name sectionName = true
      · simp [Focus.step, h]
      · simp [Focus.step, h]
    | pair key value =>
      by_cases h : (focus same events sectionName).active = true
      · simp [Focus.step, h]
      · simp [Focus.step, h]
    | nothing => simp [Focus.step]

theorem opened_concat (e : Event) : Opened same (events ++ [e]) sectionName ↔
    match e with
    | .header name => same name sectionName = true
    | _ => Opened same events sectionName := by
  unfold Opened
  simp only [concat_eq_append_cons]
  cases e with
  | header name =>
    constructor
    · rintro ⟨above, name', between, (⟨-, he, -⟩ | ⟨between', rfl, -⟩), hname, hno⟩
      · cases he
        exact hname
      · exact absurd (by simp) (hno name)
    · intro h
      exact ⟨events, name, [], Or.inl ⟨rfl, rfl, rfl⟩, h, by simp⟩
  | pair key value =>
    constructor
    · rintro ⟨above, name', between, (⟨-, he, -⟩ | ⟨between', rfl, rfl⟩), hname, hno⟩
      · cases he
      · exact ⟨above, name', between', rfl, hname, fun x hx => hno x (by simp [hx])⟩
    · rintro ⟨above, name', between, rfl, hname, hno⟩
      exact ⟨above, name', between ++ [.pair key value], Or.inr ⟨between, rfl, rfl⟩, hname,
        fun x hx => by simp [hno x] at hx⟩
  | nothing =>
    constructor
    · rintro ⟨above, name', between, (⟨-, he, -⟩ | ⟨between', rfl, rfl⟩), hname, hno⟩
      · cases he
      · exact ⟨above, name', between', rfl, hname, fun x hx => hno x (by simp [hx])⟩
    · rintro ⟨above, name', between, rfl, hname, hno⟩
      exact ⟨above, name', between ++ [.nothing], Or.inr ⟨between, rfl, rfl⟩, hname,
        fun x hx => by simp [hno x] at hx⟩

theorem focus_active (events : List Event) :
    (focus same events sectionName).active = true ↔ Opened same events sectionName := by
  induction events using List.reverseRecOn with
  | nil => simp [focus, Opened]
  | append_singleton events e ih =>
    rw [focus_concat, opened_concat]
    cases e with
    | header name =>
      by_cases h : same name sectionName = true
      · simp [Focus.step, h]
      · simp [Focus.step, h]
    | pair key value =>
      by_cases h : (focus same events sectionName).active = true
      · simpa [Focus.step, h] using ih
      · simpa [Focus.step, h] using ih
    | nothing => exact ih

theorem attributed_concat (e : Event) (key value : List Char) :
    Attributed same (events ++ [e]) sectionName key value ↔
      (e = .pair key value ∧ Opened same events sectionName) ∨
        (Attributed same events sectionName key value ∧
          ∀ name, e = .header name → same name sectionName = false) := by
  unfold Attributed
  simp only [concat_eq_append_cons]
  constructor
  · rintro ⟨above, below, (⟨rfl, he, rfl⟩ | ⟨below', rfl, rfl⟩), hopen, hno⟩
    · exact Or.inl ⟨he, hopen⟩
    · refine Or.inr ⟨⟨above, below', rfl, hopen, fun name h => hno name (by simp [h])⟩, ?_⟩
      rintro name rfl
      exact hno name (by simp)
  · rintro (⟨rfl, hopen⟩ | ⟨⟨above, below, rfl, hopen, hno⟩, he⟩)
    · exact ⟨events, [], Or.inl ⟨rfl, rfl, rfl⟩, hopen, by simp⟩
    · refine ⟨above, below ++ [e], Or.inr ⟨below, rfl, rfl⟩, hopen, ?_⟩
      intro name h
      rcases List.mem_append.mp h with h | h
      · exact hno name h
      · exact he name (List.mem_singleton.mp h).symm

theorem focus_pairs (events : List Event) (key value : List Char) :
    (key, value) ∈ (focus same events sectionName).pairs ↔
      Attributed same events sectionName key value := by
  induction events using List.reverseRecOn with
  | nil => simp [focus, Attributed]
  | append_singleton events e ih =>
    rw [focus_concat, attributed_concat, ← focus_active, ← ih]
    cases e with
    | header name =>
      by_cases h : same name sectionName = true
      · simp [Focus.step, h]
      · simp [Focus.step, h]
    | pair key' value' =>
      by_cases h : (focus same events sectionName).active = true
      · have hswap : (key', value') = (key, value) ↔ (key, value) = (key', value') := eq_comm
        simp only [Focus.step, h, if_true, List.mem_append, List.mem_singleton, Event.pair.injEq,
          ← Prod.mk.injEq, hswap, reduceCtorEq, false_implies, implies_true, and_true]
        exact or_comm
      · simp [Focus.step, h]
    | nothing => simp [Focus.step]

end

/-! ## Literals -/

theorem all_isDigit_of_literal {digits : List Char} {m : Nat}
    (h : integerLiteral digits = some m) : digits ≠ [] ∧ digits.all isDigit = true := by
  unfold integerLiteral at h
  by_cases hc : digits = [] ∨ digits.all isDigit = false
  · rw [if_pos hc] at h
    cases h
  · simpa using hc

theorem literal_of_constantValue {text : List Char} {n : Int} (h : constantValue text = some n) :
    magnitude text ≠ [] ∧ (magnitude text).all isDigit = true := by
  obtain ⟨m, hm, -⟩ := Option.map_eq_some_iff.mp h
  exact all_isDigit_of_literal hm

/-- A literal has the digits that either script looks for. -/
theorem matchInt_of_constantValue (ct : Ctype) {text : List Char} {n : Int}
    (h : constantValue text = some n) : ct.matchInt text = true := by
  obtain ⟨hne, hall⟩ := literal_of_constantValue h
  rw [Ctype.matchInt, Bool.and_eq_true, decide_eq_true_eq]
  refine ⟨hne, List.all_eq_true.mpr fun c hc => ?_⟩
  exact ct.digit_ascii c (List.all_eq_true.mp hall c hc)

/-! ## The members of a section -/

theorem mem_defaultsOf {structs : List Struct} {sectionName key : List Char} {m : Member} :
    m ∈ defaultsOf structs sectionName key ↔
      ∃ s ∈ structs, s.sectionName = sectionName ∧ m ∈ s.defaults ∧ m.key = key := by
  simp [defaultsOf, and_assoc]

/-- A script that generates the members of the lines in the section, and for each of them a good
one exactly if its value is a literal. -/
theorem emits_iff {same : List Char → List Char → Bool} {events : List Event}
    {structs : List Struct} {camelCase sectionName key : List Char} {n : Int}
    (mk : List Char → Member)
    (hmem : ∀ m, m ∈ defaultsOf structs sectionName key ↔
      firstHeader same events sectionName = some sectionName ∧
        ∃ value, Attributed same events sectionName key value ∧ m = mk value)
    (hgood : ∀ value, Attributed same events sectionName key value →
      ((mk value).Holds camelCase n ↔ constantValue value = some n)) :
    Emits structs camelCase sectionName key n ↔ ReadAlike same events sectionName key n := by
  constructor
  · rintro ⟨hne, hall⟩
    obtain ⟨m, hm⟩ := List.exists_mem_of_ne_nil _ hne
    obtain ⟨hfirst, value, hat, -⟩ := (hmem m).mp hm
    refine ⟨hfirst, ⟨value, hat⟩, fun value' hat' => ?_⟩
    exact (hgood value' hat').mp (hall _ ((hmem _).mpr ⟨hfirst, value', hat', rfl⟩))
  · rintro ⟨hfirst, ⟨value, hat⟩, hall⟩
    refine ⟨List.ne_nil_of_mem ((hmem (mk value)).mpr ⟨hfirst, value, hat, rfl⟩), ?_⟩
    intro m hm
    obtain ⟨-, value', hat', rfl⟩ := (hmem m).mp hm
    exact (hgood value' hat').mpr (hall value' hat')

/-! ## PowerShell -/

namespace PowerShell
variable {ps : PowerShell}

/-- How the dictionary has one section. -/
structure Agrees (ps : PowerShell) (sectionName : List Char) (st : State) (f : Focus) : Prop where
  active : f.active = true ↔
    ∃ name, st.currentSection = some name ∧ ps.sameName name sectionName = true
  entry : ∀ e ∈ st.sections, ps.sameName e.1 sectionName = true →
    f.stored = some e.1 ∧ e.2 = f.pairs
  stored : ∀ name, f.stored = some name →
    ps.sameName name sectionName = true ∧ (name, f.pairs) ∈ st.sections

theorem same_iff {name name' : List Char} (h : ps.sameName name name' = true) (s : List Char) :
    ps.sameName s name = true ↔ ps.sameName s name' = true :=
  ⟨fun hs => ps.same_trans s name name' hs h,
    fun hs => ps.same_trans s name' name hs (ps.same_symm name name' h)⟩

theorem other_name {name sectionName d : List Char} (hs : ¬ ps.sameName name sectionName = true)
    (hd : ps.sameName d sectionName = true) : ps.sameName d name = false := by
  rw [Bool.eq_false_iff]
  intro hdn
  exact hs (ps.same_trans name d sectionName (ps.same_symm d name hdn) hd)

section
variable {sectionName name : List Char} {st : State} {f : Focus}

/-- A header of the section: its entries are gone, its place and spelling stay. -/
theorem agrees_header (h : Agrees ps sectionName st f)
    (hs : ps.sameName name sectionName = true) :
    Agrees ps sectionName (ps.step st (.header name)) ⟨f.stored.or (some name), true, []⟩ := by
  have hactive : (true : Bool) = true ↔ ∃ x, (ps.step st (.header name)).currentSection = some x ∧
      ps.sameName x sectionName = true := ⟨fun _ => ⟨name, rfl, hs⟩, fun _ => rfl⟩
  by_cases hany : st.sections.any (fun s => ps.sameName s.1 name) = true
  · have hsec : (ps.step st (.header name)).sections =
        st.sections.map fun s => if ps.sameName s.1 name then (s.1, []) else s := by
      simp only [step, reset, if_pos hany]
    obtain ⟨e₀, he₀, hsame₀⟩ := List.any_eq_true.mp hany
    have hstored := (h.entry e₀ he₀ ((same_iff hs e₀.1).mp hsame₀)).1
    refine ⟨hactive, ?_, ?_⟩
    · intro e he hsame
      rw [hsec] at he
      obtain ⟨d, hd, rfl⟩ := List.mem_map.mp he
      by_cases hdn : ps.sameName d.1 name = true
      · rw [if_pos hdn] at hsame ⊢
        rw [(h.entry d hd hsame).1]
        exact ⟨rfl, rfl⟩
      · rw [if_neg hdn] at hsame
        exact absurd ((same_iff hs d.1).mpr hsame) hdn
    · intro x hx
      rw [hstored] at hx
      cases hx
      have hin := h.stored e₀.1 hstored
      refine ⟨hin.1, ?_⟩
      rw [hsec]
      exact List.mem_map.mpr ⟨_, hin.2, by simp [hsame₀]⟩
  · have hsec : (ps.step st (.header name)).sections = st.sections ++ [(name, [])] := by
      simp only [step, reset, if_neg hany]
    have hnone : ∀ d ∈ st.sections, ps.sameName d.1 sectionName = false := by
      intro d hd
      rw [Bool.eq_false_iff]
      intro hsame
      exact hany (List.any_eq_true.mpr ⟨d, hd, (same_iff hs d.1).mpr hsame⟩)
    have hstored : f.stored = none := by
      rw [Option.eq_none_iff_forall_ne_some]
      intro x hx
      have hin := h.stored x hx
      exact Bool.false_ne_true ((hnone _ hin.2).symm.trans hin.1)
    rw [hstored]
    refine ⟨hactive, ?_, ?_⟩
    · intro e he hsame
      rw [hsec] at he
      rcases List.mem_append.mp he with he | he
      · exact absurd hsame (Bool.eq_false_iff.mp (hnone e he))
      · rw [List.mem_singleton.mp he]
        exact ⟨rfl, rfl⟩
    · intro x hx
      cases hx
      exact ⟨hs, by simp [hsec]⟩

/-- A header of another section leaves the entries of this one alone. -/
theorem mem_reset_other (hs : ¬ ps.sameName name sectionName = true)
    (sections : List (List Char × List (List Char × List Char)))
    {e : List Char × List (List Char × List Char)} (he : ps.sameName e.1 sectionName = true) :
    e ∈ ps.reset sections name ↔ e ∈ sections := by
  unfold reset
  split
  · constructor
    · intro hin
      obtain ⟨d, hd, rfl⟩ := List.mem_map.mp hin
      by_cases hdn : ps.sameName d.1 name = true
      · rw [if_pos hdn] at he
        rw [other_name hs he] at hdn
        cases hdn
      · rwa [if_neg hdn]
    · intro hin
      exact List.mem_map.mpr ⟨e, hin, by simp [other_name hs he]⟩
  · rw [List.mem_append, List.mem_singleton]
    constructor
    · rintro (hin | rfl)
      · exact hin
      · exact absurd he hs
    · exact Or.inl

theorem agrees_header_other (h : Agrees ps sectionName st f)
    (hs : ¬ ps.sameName name sectionName = true) :
    Agrees ps sectionName (ps.step st (.header name)) { f with active := false } := by
  refine ⟨⟨fun hf => absurd hf Bool.false_ne_true, ?_⟩, ?_, ?_⟩
  · rintro ⟨x, hx, hsame⟩
    cases hx
    exact absurd hsame hs
  · intro e he hsame
    exact h.entry e ((mem_reset_other hs st.sections hsame).mp he) hsame
  · intro x hx
    have hin := h.stored x hx
    exact ⟨hin.1, (mem_reset_other hs st.sections hin.1).mpr hin.2⟩

/-- An entry for the section goes to it, in whatever spelling the section is current. -/
theorem agrees_append (h : Agrees ps sectionName st f)
    (hs : ps.sameName name sectionName = true) (entry : List Char × List Char) :
    Agrees ps sectionName { st with sections := ps.append st.sections name entry }
      { f with pairs := f.pairs ++ [entry] } := by
  refine ⟨h.active, ?_, ?_⟩
  · intro e he hsame
    obtain ⟨d, hd, rfl⟩ := List.mem_map.mp he
    by_cases hdn : ps.sameName d.1 name = true
    · rw [if_pos hdn] at hsame ⊢
      obtain ⟨hstored, hpairs⟩ := h.entry d hd hsame
      exact ⟨hstored, by rw [hpairs]⟩
    · rw [if_neg hdn] at hsame
      exact absurd ((same_iff hs d.1).mpr hsame) hdn
  · intro x hx
    have hin := h.stored x hx
    refine ⟨hin.1, List.mem_map.mpr ⟨_, hin.2, ?_⟩⟩
    rw [if_pos ((same_iff hs x).mpr hin.1)]

theorem agrees_append_other (h : Agrees ps sectionName st f)
    (hs : ¬ ps.sameName name sectionName = true) (entry : List Char × List Char) :
    Agrees ps sectionName { st with sections := ps.append st.sections name entry } f := by
  refine ⟨h.active, ?_, ?_⟩
  · intro e he hsame
    obtain ⟨d, hd, rfl⟩ := List.mem_map.mp he
    by_cases hdn : ps.sameName d.1 name = true
    · rw [if_pos hdn] at hsame
      rw [other_name hs hsame] at hdn
      cases hdn
    · rw [if_neg hdn] at hsame ⊢
      exact h.entry d hd hsame
  · intro x hx
    have hin := h.stored x hx
    refine ⟨hin.1, List.mem_map.mpr ⟨_, hin.2, ?_⟩⟩
    simp [other_name hs hin.1]

theorem agrees_step (h : Agrees ps sectionName st f) (e : Event) :
    Agrees ps sectionName (ps.step st e) (f.step ps.sameName sectionName e) := by
  cases e with
  | header name =>
    by_cases hs : ps.sameName name sectionName = true
    · simp only [Focus.step, if_pos hs]
      exact agrees_header h hs
    · simp only [Focus.step, if_neg hs]
      exact agrees_header_other h hs
  | pair key value =>
    cases hc : st.currentSection with
    | none =>
      have hoff : ¬ f.active = true := by
        rw [h.active, hc]
        simp
      simp only [step, hc, Focus.step, if_neg hoff]
      exact h
    | some name =>
      have hstep : ps.step st (.pair key value) =
          { st with sections := ps.append st.sections name (key, value) } := by
        simp only [step, hc]
      rw [hstep]
      by_cases hs : ps.sameName name sectionName = true
      · have hon : f.active = true := h.active.mpr ⟨name, hc, hs⟩
        simp only [Focus.step, if_pos hon]
        exact agrees_append h hs (key, value)
      · have hoff : ¬ f.active = true := by
          rw [h.active, hc]
          rintro ⟨x, hx, hsame⟩
          cases hx
          exact hs hsame
        simp only [Focus.step, if_neg hoff]
        exact agrees_append_other h hs (key, value)
  | nothing => exact h

end

theorem agrees_events (ps : PowerShell) (sectionName : List Char) (events : List Event) :
    Agrees ps sectionName (events.foldl ps.step ⟨[], none⟩)
      (focus ps.sameName events sectionName) := by
  induction events using List.reverseRecOn with
  | nil => exact ⟨by simp [focus], by simp, by simp [focus]⟩
  | append_singleton events e ih =>
    rw [List.foldl_concat, focus_concat]
    exact agrees_step ih e

/-- No section is called `keys`. -/
def KeysFree (ps : PowerShell) (events : List Event) : Prop :=
  ∀ name, .header name ∈ events → ps.sameName name "Keys".toList = false

theorem firstHeader_eq_none_iff {same : List Char → List Char → Bool} {events : List Event}
    {sectionName : List Char} : firstHeader same events sectionName = none ↔
      ∀ name, .header name ∈ events → same name sectionName = false := by
  rw [firstHeader, List.findSome?_eq_none_iff]
  constructor
  · intro h name hname
    simpa using h _ hname
  · intro h e he
    cases e with
    | header name => simp [h name he]
    | pair key value => rfl
    | nothing => rfl

/-- The dictionary has an entry `keys` exactly behind a header of that name. -/
theorem find_keys_eq_none_iff (ps : PowerShell) (events : List Event) :
    ((events.foldl ps.step ⟨[], none⟩).sections.find? fun s =>
      ps.sameName s.1 "Keys".toList) = none ↔ ps.KeysFree events := by
  have h := agrees_events ps "Keys".toList events
  rw [KeysFree, ← firstHeader_eq_none_iff, ← focus_stored, List.find?_eq_none]
  constructor
  · intro hno
    rw [Option.eq_none_iff_forall_ne_some]
    intro name hname
    exact hno _ (h.stored name hname).2 (h.stored name hname).1
  · intro hnone e he hsame
    exact Option.some_ne_none _ ((h.entry e he hsame).1.symm.trans hnone)

theorem mem_generate {text : List Char} (hfree : ps.KeysFree (ps.events text))
    (sectionName key : List Char) (m : Member) :
    m ∈ defaultsOf (ps.generate text) sectionName key ↔
      firstHeader ps.sameName (ps.events text) sectionName = some sectionName ∧
        ∃ value, Attributed ps.sameName (ps.events text) sectionName key value ∧
          m = ps.member (key, value) := by
  have h := agrees_events ps sectionName (ps.events text)
  rw [mem_defaultsOf, ← focus_stored]
  simp only [generate, (find_keys_eq_none_iff ps (ps.events text)).mpr hfree, ← focus_pairs]
  constructor
  · rintro ⟨s, hs, rfl, hm, rfl⟩
    obtain ⟨e, he, rfl⟩ := List.mem_map.mp hs
    obtain ⟨entry, hentry, rfl⟩ := List.mem_map.mp hm
    obtain ⟨hstored, hpairs⟩ := h.entry e he (ps.same_refl e.1)
    refine ⟨hstored, entry.2, ?_, rfl⟩
    rw [← hpairs]
    exact hentry
  · rintro ⟨hstored, value, hpair, rfl⟩
    refine ⟨_, List.mem_map.mpr ⟨_, (h.stored sectionName hstored).2, rfl⟩, rfl, ?_, rfl⟩
    exact List.mem_map.mpr ⟨(key, value), hpair, rfl⟩

/-- With a section `keys` there is no member at all. -/
theorem defaultsOf_generate_eq_nil {text : List Char} (hkeys : ¬ ps.KeysFree (ps.events text))
    (sectionName key : List Char) : defaultsOf (ps.generate text) sectionName key = [] := by
  obtain ⟨e, he⟩ := Option.ne_none_iff_exists'.mp
    fun h => hkeys ((find_keys_eq_none_iff ps (ps.events text)).mp h)
  rw [List.eq_nil_iff_forall_not_mem]
  intro m hm
  simp only [mem_defaultsOf, generate, he] at hm
  obtain ⟨s, hs, -, hm, -⟩ := hm
  obtain ⟨entry, -, rfl⟩ := List.mem_map.mp hs
  cases hm

theorem getCppType_cases (ps : PowerShell) (value : List Char) :
    (ps.matchInt value = true ∧ ps.getCppType value = "int".toList) ∨
      ps.getCppType value = "double".toList ∨ ps.getCppType value = "bool".toList ∨
        ps.getCppType value = "std::string".toList := by
  unfold getCppType
  split
  · exact Or.inl ⟨‹_›, rfl⟩
  · split
    · exact Or.inr (Or.inl rfl)
    · split
      · exact Or.inr (Or.inr (Or.inl rfl))
      · exact Or.inr (Or.inr (Or.inr rfl))

theorem member_holds (key value : List Char) (n : Int) :
    (ps.member (key, value)).Holds (ps.convertToCamelCase key) n ↔
      constantValue value = some n := by
  have hint : ps.matchInt value = true → ps.getCppType value = "int".toList := by
    intro h
    rw [getCppType, if_pos h]
  constructor
  · rintro ⟨-, htype, hvalue⟩
    rcases getCppType_cases ps value with ⟨-, h⟩ | h | h | h
    · simpa [member, formatCppValue, h] using hvalue
    · simp [member, h] at htype
    · simp [member, h] at htype
    · simp [member, h] at htype
  · intro h
    have htype := hint (matchInt_of_constantValue ps.toCtype h)
    refine ⟨rfl, Or.inl htype, ?_⟩
    simpa [member, formatCppValue, htype] using h

end PowerShell

/-! ## Bash -/

theorem mem_intercalate {α : Type} {sep l : List α} {ls : List (List α)} {c : α} (hl : l ∈ ls)
    (hc : c ∈ l) : c ∈ sep.intercalate ls := by
  induction ls with
  | nil => simp at hl
  | cons l' ls ih =>
    cases ls with
    | nil =>
      rw [List.mem_singleton.mp hl] at hc
      simpa using hc
    | cons l'' ls =>
      rw [List.intercalate_cons_cons]
      rcases List.mem_cons.mp hl with rfl | hl
      · simp [hc]
      · exact List.mem_append_right _ (ih hl)

theorem intercalate_concat {α : Type} (sep l : List α) {ls : List (List α)} (h : ls ≠ []) :
    sep.intercalate (ls ++ [l]) = sep.intercalate ls ++ sep ++ l := by
  induction ls with
  | nil => exact absurd rfl h
  | cons l' ls ih =>
    cases ls with
    | nil => simp
    | cons l'' ls =>
      have hne : l'' :: ls ≠ [] := List.cons_ne_nil _ _
      rw [List.cons_append, List.intercalate_cons_of_ne_nil (by simp), ih hne,
        List.intercalate_cons_of_ne_nil hne]
      simp only [List.append_assoc]

theorem not_mem_splitOn {a : Char} {xs l : List Char} (h : l ∈ xs.splitOn a) : a ∉ l := by
  induction xs generalizing l with
  | nil =>
    rw [List.splitOn_nil, List.mem_singleton] at h
    simp [h]
  | cons x xs ih =>
    rw [List.splitOn_cons_eq_if_modifyHead] at h
    by_cases hx : x = a
    · rw [if_pos (by simpa using hx)] at h
      rcases List.mem_cons.mp h with rfl | h
      · simp
      · exact ih h
    · rw [if_neg (by simpa using hx)] at h
      cases hs : xs.splitOn a with
      | nil => exact absurd hs (List.splitOn_ne_nil a xs)
      | cons l' ls =>
        rw [hs] at h
        have hl' : a ∉ l' := ih (hs ▸ List.mem_cons_self ..)
        rcases List.mem_cons.mp h with rfl | h
        · simp [hl', Ne.symm hx]
        · exact ih (hs ▸ List.mem_cons_of_mem _ h)

namespace Bash
variable {ct : Ctype}

/-! What the script cuts off and puts together is free of bars and line ends where it must be. -/

theorem mem_echo {arg : List Char} {c : Char} (h : c ∈ echo arg) : c ∈ arg := by
  unfold echo at h
  split at h
  · split at h
    · cases h
    · exact h
  · exact h

theorem mem_trim {line : List Char} {c : Char} (h : c ∈ ct.trim line) : c ∈ line :=
  (List.dropWhile_sublist ct.space).mem ((List.rdropWhile_prefix ct.space _).mem h)

theorem mem_unquote {value : List Char} {c : Char} (h : c ∈ unquote ct value) : c ∈ value := by
  have hmem : ∀ value' : List Char,
      c ∈ (if (value'.rdropWhile ct.space).getLast? = some '"' then
        (value'.rdropWhile ct.space).dropLast else value') → c ∈ value' := by
    intro value' h
    split at h
    · exact (List.rdropWhile_prefix ct.space _).mem ((List.dropLast_sublist _).mem h)
    · exact h
  have hc := hmem _ h
  split at hc
  · rename_i rest heq
    exact (List.dropWhile_sublist ct.space).mem (heq ▸ List.mem_cons_of_mem _ hc)
  · exact hc

theorem matchPair_some {line key value : List Char} (h : ct.matchPair line = some (key, value)) :
    key.all ct.word = true ∧ ∀ c ∈ value, c ∈ line := by
  unfold Ctype.matchPair at h
  split at h
  · rename_i rest heq
    simp only at h
    split at h
    · cases h
    · simp only [Option.some.injEq, Prod.mk.injEq] at h
      obtain ⟨rfl, rfl⟩ := h
      refine ⟨List.all_takeWhile, fun c hc => ?_⟩
      have hrest : c ∈ (line.dropWhile ct.word).dropWhile ct.space := by
        rw [heq]
        exact List.mem_cons_of_mem _ ((List.dropWhile_sublist ct.space).mem hc)
      exact (List.dropWhile_sublist ct.word).mem ((List.dropWhile_sublist ct.space).mem hrest)
  · cases h

theorem event_pair {line key value : List Char} (h : event ct line = .pair key value) :
    key.all ct.word = true ∧ ∀ c ∈ value, c ∈ line := by
  unfold event at h
  simp only at h
  split at h
  · cases h
  · split at h
    · cases h
    · split at h
      · rename_i key' value' heq
        simp only [Event.pair.injEq] at h
        obtain ⟨rfl, rfl⟩ := h
        obtain ⟨hkey, hvalue⟩ := matchPair_some heq
        exact ⟨hkey, fun c hc => mem_echo (mem_trim (hvalue c (mem_echo (mem_unquote hc))))⟩
      · cases h

theorem event_header {line name : List Char} (h : event ct line = .header name) : name ≠ [] := by
  unfold event at h
  simp only at h
  split at h
  · cases h
  · split at h
    · rename_i name' heq
      simp only [Event.header.injEq] at h
      subst h
      unfold Ctype.matchHeader at heq
      split at heq
      · split at heq
        · rename_i hc
          cases heq
          exact hc.2.1
        · cases heq
      · cases heq
    · split at h <;> cases h

/-- A key has no bar, and nothing on a line has a line end. -/
theorem pair_plain {text key value : List Char} (h : .pair key value ∈ events ct text) :
    ('|' ∉ key ∧ '\n' ∉ key) ∧ '\n' ∉ value := by
  obtain ⟨line, hline, he⟩ := List.mem_map.mp h
  obtain ⟨hkey, hvalue⟩ := event_pair he
  have hnl : '\n' ∉ line := not_mem_splitOn ((List.dropLast_sublist _).mem hline)
  refine ⟨⟨fun hc => ?_, fun hc => ?_⟩, fun hc => hnl (hvalue _ hc)⟩
  · have hw := List.all_eq_true.mp hkey _ hc
    rw [ct.word_bar] at hw
    cases hw
  · have hw := List.all_eq_true.mp hkey _ hc
    rw [ct.word_newline] at hw
    cases hw

theorem toCamelCase_plain (ct : Ctype) {key : List Char} {d : Char} (hd : d = '|' ∨ d = '\n')
    (h : d ∉ key) : d ∉ toCamelCase ct key := by
  have hpascal : d ∉ toPascalCase ct key := by
    intro hmem
    obtain ⟨part, hpart, hin⟩ := List.mem_flatMap.mp (mem_echo hmem)
    have hsub : ∀ c ∈ part, c ∈ key := by
      intro c hc
      have hkey : ['_'].intercalate (key.splitOn '_') = key := List.intercalate_splitOn '_'
      rw [← hkey]
      exact mem_intercalate hpart hc
    cases part with
    | nil => cases hin
    | cons c rest =>
      rcases List.mem_cons.mp hin with heq | hin
      · have hcd := ct.case_sign c d hd (Or.inl heq.symm)
        exact h (hsub d (hcd ▸ List.mem_cons_self ..))
      · exact h (hsub d (List.mem_cons_of_mem _ hin))
  intro hmem
  unfold toCamelCase at hmem
  cases hp : toPascalCase ct key with
  | nil =>
    rw [hp] at hmem
    cases hmem
  | cons c rest =>
    rw [hp] at hmem hpascal
    rcases List.mem_cons.mp (mem_echo hmem) with heq | hin
    · have hcd := ct.case_sign c d hd (Or.inr heq.symm)
      exact hpascal (hcd ▸ List.mem_cons_self ..)
    · exact hpascal (List.mem_cons_of_mem _ hin)

/-! The data of a section are its records. -/

/-- How the two arrays have one section. -/
structure Agrees (ct : Ctype) (sectionName : List Char) (st : State) (f : Focus) : Prop where
  active : f.active = true ↔ st.currentSection = sectionName ∧ sectionName ≠ []
  order : sectionName ∈ st.sectionOrder ↔ f.stored = some sectionName
  stored : f.stored = none ∨ f.stored = some sectionName
  data : st.sections sectionName =
    ['\n'].intercalate (f.pairs.map fun e => record ct e.1 e.2)

theorem record_ne_nil (ct : Ctype) (key value : List Char) : record ct key value ≠ [] := by
  simp [record]

theorem agrees_step {sectionName : List Char} {st : State} {f : Focus}
    (h : Agrees ct sectionName st f) (e : Event) (he : ∀ name, e = .header name → name ≠ []) :
    Agrees ct sectionName (step ct st e) (f.step (· == ·) sectionName e) := by
  cases e with
  | header name =>
    by_cases hs : name = sectionName
    · subst hs
      have hor : f.stored.or (some name) = some name := by
        rcases h.stored with hnone | hsome
        · rw [hnone]
          rfl
        · rw [hsome]
          rfl
      simp only [Focus.step, beq_self_eq_true, if_true, hor]
      exact ⟨by simp [step, he name rfl], by simp [step], Or.inr rfl, by simp [step]⟩
    · have hs' : sectionName ≠ name := fun heq => hs heq.symm
      simp only [Focus.step, beq_iff_eq, if_neg hs]
      refine ⟨by simp [step, hs], ?_, h.stored, ?_⟩
      · simpa [step, hs'] using h.order
      · simpa [step, Function.update_of_ne hs'] using h.data
  | pair key value =>
    by_cases hc : st.currentSection = []
    · have hoff : ¬ f.active = true := by
        rw [h.active, hc]
        rintro ⟨rfl, hne⟩
        exact hne rfl
      simp only [step, if_pos hc, Focus.step, if_neg hoff]
      exact h
    · simp only [step, if_neg hc]
      by_cases hs : st.currentSection = sectionName
      · have hon : f.active = true := h.active.mpr ⟨hs, hs ▸ hc⟩
        simp only [Focus.step, if_pos hon]
        refine ⟨h.active, h.order, h.stored, ?_⟩
        simp only [hs, Function.update_self]
        rw [h.data]
        cases hp : f.pairs with
        | nil => simp
        | cons p ps =>
          have hne : ['\n'].intercalate ((p :: ps).map fun e => record ct e.1 e.2) ≠ [] := by
            obtain ⟨c, hc⟩ := List.exists_mem_of_ne_nil _ (record_ne_nil ct p.1 p.2)
            exact List.ne_nil_of_mem (mem_intercalate (List.mem_cons_self ..) hc)
          rw [if_neg hne, List.map_append, List.map_singleton, intercalate_concat _ _ (by simp)]
      · have hoff : ¬ f.active = true := by
          rw [h.active]
          exact fun hh => hs hh.1
        simp only [Focus.step, if_neg hoff]
        refine ⟨h.active, h.order, h.stored, ?_⟩
        have hne : sectionName ≠ st.currentSection := fun heq => hs heq.symm
        simp only [Function.update_of_ne hne]
        exact h.data
  | nothing => exact h

theorem agrees_events (ct : Ctype) (sectionName : List Char) (events : List Event)
    (hnames : ∀ name, .header name ∈ events → name ≠ []) :
    Agrees ct sectionName (events.foldl (step ct) ⟨fun _ => [], [], []⟩)
      (focus (· == ·) events sectionName) := by
  induction events using List.reverseRecOn with
  | nil =>
    refine ⟨?_, by simp [focus], Or.inl rfl, rfl⟩
    simp only [focus, List.foldl_nil, Bool.false_eq_true, false_iff, not_and, Decidable.not_not]
    exact fun heq => heq.symm
  | append_singleton events e ih =>
    rw [List.foldl_concat, focus_concat]
    refine agrees_step (ih fun name h => hnames name (by simp [h])) e ?_
    rintro name rfl
    exact hnames name (by simp)

/-! What `read` gets back from a record. -/

theorem field_append {front rest : List Char} (h : '|' ∉ front) :
    field (front ++ '|' :: rest) = (front, rest) := by
  have hall : ∀ c ∈ front, decide (c ≠ '|') = true := by
    intro c hc
    rw [decide_eq_true_eq]
    rintro rfl
    exact h hc
  rw [field, List.takeWhile_append_of_pos hall, List.dropWhile_append_of_pos hall]
  simp

theorem getCppType_cases (ct : Ctype) (value : List Char) :
    (ct.matchInt value = true ∧ getCppType ct value = "INT".toList) ∨
      getCppType ct value = "double".toList ∨ getCppType ct value = "bool".toList ∨
        getCppType ct value = "std::string".toList := by
  unfold getCppType
  split
  · exact Or.inl ⟨‹_›, rfl⟩
  · split
    · exact Or.inr (Or.inl rfl)
    · split
      · exact Or.inr (Or.inr (Or.inl rfl))
      · exact Or.inr (Or.inr (Or.inr rfl))

theorem getCppType_plain (ct : Ctype) (value : List Char) :
    '|' ∉ getCppType ct value ∧ '\n' ∉ getCppType ct value ∧ getCppType ct value ≠ [] := by
  rcases getCppType_cases ct value with ⟨-, h⟩ | h | h | h
  · rw [h]
    decide
  · rw [h]
    decide
  · rw [h]
    decide
  · rw [h]
    decide

theorem lastField_plain {rest : List Char} (h : '|' ∉ rest) : lastField rest = rest := by
  refine if_neg fun hc => h ?_
  exact List.mem_of_getLast? hc.1

theorem member_plain {key value : List Char} (hkey : '|' ∉ key) (hvalue : '|' ∉ value) :
    member (record ct key value) = ⟨key, getCppType ct value, toCamelCase ct key,
      formatCppValue value (getCppType ct value)⟩ := by
  have hcamel := toCamelCase_plain ct (Or.inl rfl) hkey
  simp only [member, record, List.append_assoc, List.cons_append, field_append hkey,
    field_append hvalue, field_append (getCppType_plain ct value).1,
    lastField_plain hcamel]

theorem member_key {key : List Char} (hkey : '|' ∉ key) (value : List Char) :
    (member (record ct key value)).key = key := by
  simp only [member, record, List.append_assoc, List.cons_append, field_append hkey]

theorem length_lastField (rest : List Char) : rest.length ≤ (lastField rest).length + 1 := by
  unfold lastField
  split
  · rw [List.length_dropLast]
    omega
  · omega

/-- A bar in the value shifts the fields: too much is left for the name. -/
theorem member_bar {key value : List Char} (hkey : '|' ∉ key) (hvalue : '|' ∈ value) :
    (member (record ct key value)).camelCase ≠ toCamelCase ct key := by
  have htype := getCppType_plain ct value
  obtain ⟨front, back, rfl, hfront⟩ := List.eq_append_cons_of_mem hvalue
  unfold record
  generalize getCppType ct (front ++ '|' :: back) = type at htype ⊢
  generalize toCamelCase ct key = camel
  have hrest : ∃ x : List Char, x ≠ [] ∧
      (field (back ++ '|' :: (type ++ '|' :: camel))).2 = x ++ '|' :: camel := by
    by_cases hback : '|' ∈ back
    · obtain ⟨front', back', rfl, hfront'⟩ := List.eq_append_cons_of_mem hback
      refine ⟨back' ++ '|' :: type, by simp, ?_⟩
      rw [List.append_assoc, List.cons_append, field_append hfront']
      simp
    · refine ⟨type, htype.2.2, ?_⟩
      rw [field_append hback]
  obtain ⟨x, hx, hrest⟩ := hrest
  have hname : (member (key ++ '|' :: (front ++ '|' :: back) ++ '|' :: type ++
      '|' :: camel)).camelCase = lastField (x ++ '|' :: camel) := by
    rw [← hrest]
    simp only [member, List.append_assoc, List.cons_append, field_append hkey,
      field_append hfront]
  intro heq
  have hlen := length_lastField (x ++ '|' :: camel)
  have hpos := List.length_pos_iff.mpr hx
  rw [← hname, heq, List.length_append, List.length_cons] at hlen
  omega

theorem constantValue_echo (value : List Char) :
    constantValue (echo value) = constantValue value := by
  unfold echo
  split
  · rename_i options
    split
    · rename_i hc
      obtain ⟨hne, hall⟩ := hc
      have hnone : constantValue ('-' :: options) = none := by
        rw [Option.eq_none_iff_forall_ne_some]
        intro n hn
        obtain ⟨c, hc⟩ := List.exists_mem_of_ne_nil _ hne
        have hdigit := List.all_eq_true.mp (literal_of_constantValue hn).2 c hc
        have hopt := List.all_eq_true.mp hall c hc
        simp only [Bool.or_eq_true, beq_iff_eq] at hopt
        rcases hopt with (rfl | rfl) | rfl
        · exact absurd hdigit (by decide)
        · exact absurd hdigit (by decide)
        · exact absurd hdigit (by decide)
      rw [hnone]
      rfl
    · rfl
  · rfl

theorem member_holds {key : List Char} (hkey : '|' ∉ key) (value : List Char) (n : Int) :
    (member (record ct key value)).Holds (toCamelCase ct key) n ↔
      constantValue value = some n := by
  by_cases hbar : '|' ∈ value
  · constructor
    · rintro ⟨hname, -⟩
      exact absurd hname (member_bar hkey hbar)
    · intro h
      -- a literal has no bar
      obtain ⟨-, hall⟩ := literal_of_constantValue h
      have hmem : '|' ∈ magnitude value := by
        unfold magnitude
        split
        · simpa using hbar
        · exact hbar
      exact absurd (List.all_eq_true.mp hall _ hmem) (by decide)
  · rw [member_plain hkey hbar]
    constructor
    · rintro ⟨-, htype, hvalue⟩
      rcases getCppType_cases ct value with ⟨-, h⟩ | h | h | h
      · have hne : "INT".toList ≠ "std::string".toList := by decide
        simp only [h, formatCppValue, if_neg hne, constantValue_echo] at hvalue
        exact hvalue
      · simp [h] at htype
      · simp [h] at htype
      · simp [h] at htype
    · intro h
      have htype : getCppType ct value = "INT".toList := by
        rw [getCppType, if_pos (matchInt_of_constantValue ct h)]
      have hne : "INT".toList ≠ "std::string".toList := by decide
      refine ⟨rfl, Or.inr htype, ?_⟩
      simp only [htype, formatCppValue, if_neg hne, constantValue_echo]
      exact h

theorem record_plain {key value : List Char} (hkey : '\n' ∉ key) (hvalue : '\n' ∉ value) :
    '\n' ∉ record ct key value := by
  have htype := (getCppType_plain ct value).2.1
  have hcamel := toCamelCase_plain ct (Or.inr rfl) hkey
  simp [record, hkey, hvalue, htype, hcamel]

/-- The lines of the data are the records. -/
theorem members_data (ct : Ctype) {pairs : List (List Char × List Char)}
    (hplain : ∀ e ∈ pairs, '\n' ∉ e.1 ∧ '\n' ∉ e.2) :
    (if ['\n'].intercalate (pairs.map fun e => record ct e.1 e.2) = [] then []
      else ((['\n'].intercalate (pairs.map fun e => record ct e.1 e.2)).splitOn '\n').map member) =
      pairs.map fun e => member (record ct e.1 e.2) := by
  by_cases hp : pairs = []
  · simp [hp]
  · have hrecords : pairs.map (fun e => record ct e.1 e.2) ≠ [] := by simpa using hp
    obtain ⟨r, hr⟩ := List.exists_mem_of_ne_nil _ hrecords
    obtain ⟨e, -, rfl⟩ := List.mem_map.mp hr
    obtain ⟨c, hc⟩ := List.exists_mem_of_ne_nil _ (record_ne_nil ct e.1 e.2)
    rw [if_neg (List.ne_nil_of_mem (mem_intercalate hr hc)), List.splitOn_intercalate _ _ hrecords,
      List.map_map]
    · rfl
    · intro l hl
      obtain ⟨e', he', rfl⟩ := List.mem_map.mp hl
      exact record_plain (hplain e' he').1 (hplain e' he').2

theorem mem_generate (text sectionName key : List Char) (m : Member) :
    m ∈ defaultsOf (generate ct text) sectionName key ↔
      firstHeader (· == ·) (events ct text) sectionName = some sectionName ∧
        ∃ value, Attributed (· == ·) (events ct text) sectionName key value ∧
          m = member (record ct key value) := by
  have hnames : ∀ name, .header name ∈ events ct text → name ≠ [] := by
    intro name h
    obtain ⟨line, -, he⟩ := List.mem_map.mp h
    exact event_header he
  have h := agrees_events ct sectionName (events ct text) hnames
  have hplain : ∀ e ∈ (focus (· == ·) (events ct text) sectionName).pairs,
      ('|' ∉ e.1 ∧ '\n' ∉ e.1) ∧ '\n' ∉ e.2 := by
    intro e he
    obtain ⟨above, below, heq, -⟩ := (focus_pairs (events ct text) e.1 e.2).mp he
    have hpair : .pair e.1 e.2 ∈ events ct text := by
      rw [heq]
      simp
    exact pair_plain hpair
  have hdata := members_data ct fun e he => ⟨(hplain e he).1.2, (hplain e he).2⟩
  rw [← h.data] at hdata
  rw [mem_defaultsOf, ← focus_stored]
  simp only [← focus_pairs]
  constructor
  · rintro ⟨s, hs, rfl, hm, rfl⟩
    obtain ⟨name, hname, rfl⟩ := List.mem_map.mp hs
    refine ⟨h.order.mp hname, ?_⟩
    obtain ⟨e, he, rfl⟩ := List.mem_map.mp (hdata ▸ hm)
    rw [member_key (hplain e he).1.1]
    exact ⟨e.2, he, rfl⟩
  · rintro ⟨hstored, value, hpair, rfl⟩
    refine ⟨_, List.mem_map.mpr ⟨sectionName, h.order.mpr hstored, rfl⟩, rfl, ?_,
      member_key (hplain _ hpair).1.1 value⟩
    simp only [hdata]
    exact List.mem_map.mpr ⟨(key, value), hpair, rfl⟩

end Bash

/-! ## Both scripts -/

/-- The program reads the key as that integer, and the text has it once. -/
def ProgramReads (text sectionName key : List Char) (n : Int) : Prop :=
  (TomlParser.parse text).findInt (sectionName ++ '.' :: key) = some n ∧
    ((TomlParser.parse text).entries.filter fun e =>
      e.matchesFullKey (sectionName ++ '.' :: key)).length = 1

/-- Both scripts generate what the program reads. -/
def DefaultsAgree (ps : PowerShell) (ct : Ctype) (text sectionName key : List Char) : Prop :=
  ∀ n, ProgramReads text sectionName key n →
    Emits (ps.generate text) (ps.convertToCamelCase key) sectionName key n ∧
      Emits (Bash.generate ct text) (Bash.toCamelCase ct key) sectionName key n

theorem powerShell_emits_iff (ps : PowerShell) (text sectionName key : List Char) (n : Int) :
    Emits (ps.generate text) (ps.convertToCamelCase key) sectionName key n ↔
      ps.KeysFree (ps.events text) ∧ ReadAlike ps.sameName (ps.events text) sectionName key n := by
  by_cases hfree : ps.KeysFree (ps.events text)
  · rw [and_iff_right hfree]
    exact emits_iff (fun value => ps.member (key, value))
      (PowerShell.mem_generate hfree sectionName key)
      fun value _ => PowerShell.member_holds key value n
  · refine iff_of_false (fun h => h.1 ?_) fun h => hfree h.1
    exact PowerShell.defaultsOf_generate_eq_nil hfree sectionName key

theorem bash_emits_iff (ct : Ctype) (text sectionName key : List Char) (n : Int) :
    Emits (Bash.generate ct text) (Bash.toCamelCase ct key) sectionName key n ↔
      ReadAlike (· == ·) (Bash.events ct text) sectionName key n := by
  refine emits_iff (fun value => Bash.member (Bash.record ct key value))
    (Bash.mem_generate text sectionName key) fun value hat => ?_
  obtain ⟨above, below, heq, -⟩ := hat
  have hpair : .pair key value ∈ Bash.events ct text := by
    rw [heq]
    simp
  exact Bash.member_holds (Bash.pair_plain hpair).1.1 value n

/-- **When the defaults are what the program reads.** Each script must find the key under a header
it knows for one, with no such header below, and nothing but an integer literal for the value; and
to PowerShell no section may be called `keys`. -/
theorem defaults_agree_iff (ps : PowerShell) (ct : Ctype) (text sectionName key : List Char) :
    DefaultsAgree ps ct text sectionName key ↔
      ∀ n, ProgramReads text sectionName key n →
        (ps.KeysFree (ps.events text) ∧
          ReadAlike ps.sameName (ps.events text) sectionName key n) ∧
          ReadAlike (· == ·) (Bash.events ct text) sectionName key n := by
  unfold DefaultsAgree
  simp only [powerShell_emits_iff, bash_emits_iff]

/-! The line of the repository's own file: a comment behind the number. -/

def smallLetters : List Char := "abcdefghijklmnopqrstuvwxyz".toList
def capitalLetters : List Char := "ABCDEFGHIJKLMNOPQRSTUVWXYZ".toList

/-- What stands in one alphabet at the place of a letter of the other. -/
def mapCase (alphabet alphabet' : List Char) (c : Char) : Char :=
  ((alphabet.zip alphabet').find? fun p => p.1 == c).elim c Prod.snd

/-- A letter that changes case is a letter still. -/
theorem mapCase_sign {alphabet alphabet' : List Char} {c d : Char} (hd : d ∉ alphabet')
    (h : mapCase alphabet alphabet' c = d) : c = d := by
  unfold mapCase at h
  cases hf : (alphabet.zip alphabet').find? fun p => p.1 == c with
  | none =>
    rw [hf] at h
    exact h
  | some p =>
    rw [hf] at h
    have hmem := (List.of_mem_zip (List.mem_of_find?_eq_some hf)).2
    exact absurd (h ▸ hmem) hd

/-- The characters of the C locale. -/
def ascii : Ctype where
  space c := [' ', '\t', '\n', '\x0b', '\x0c', '\r'].contains c
  word c := ('a' ≤ c && c ≤ 'z') || ('A' ≤ c && c ≤ 'Z') || isDigit c || c == '_'
  digit := isDigit
  upper := mapCase smallLetters capitalLetters
  lower := mapCase capitalLetters smallLetters
  word_eq := by decide
  space_eq := by decide
  word_space c h := by
    rw [Bool.eq_false_iff]
    intro hc
    simp only [List.contains_eq_mem, List.mem_cons, List.not_mem_nil, or_false,
      decide_eq_true_eq] at hc
    rcases hc with rfl | rfl | rfl | rfl | rfl | rfl <;> exact absurd h (by decide)
  word_bar := by decide
  word_newline := by decide
  case_sign c d hd h := by
    rcases h with h | h
    · exact mapCase_sign (by rcases hd with rfl | rfl <;> decide) h
    · exact mapCase_sign (by rcases hd with rfl | rfl <;> decide) h
  digit_ascii _ h := h

def windowsPowerShell : PowerShell where
  toCtype := ascii
  sameName s t := s.map ascii.lower == t.map ascii.lower
  same_refl _ := beq_self_eq_true _
  same_symm s t h := by
    rw [beq_iff_eq] at h ⊢
    exact h.symm
  same_trans s t u h h' := by
    rw [beq_iff_eq] at h h' ⊢
    exact h.trans h'

def tickText : List Char := "[server]\ntick_ms = 16 # 60fps target!\n".toList

/-- The program reads 16, and both scripts write the string `16 # 60fps target!`. -/
theorem tick_ms_is_a_string :
    ProgramReads tickText "server".toList "tick_ms".toList 16 ∧
      defaultsOf (windowsPowerShell.generate tickText) "server".toList "tick_ms".toList =
        [⟨"tick_ms".toList, "std::string".toList, "tickMs".toList,
          "\"16 # 60fps target!\"".toList⟩] ∧
      defaultsOf (Bash.generate ascii tickText) "server".toList "tick_ms".toList =
        [⟨"tick_ms".toList, "std::string".toList, "tickMs".toList,
          "\"16 # 60fps target!\"".toList⟩] ∧
      ¬ DefaultsAgree windowsPowerShell ascii tickText "server".toList "tick_ms".toList := by
  have hreads : ProgramReads tickText "server".toList "tick_ms".toList 16 := by
    unfold ProgramReads
    rw [parse_eq_foldl]
    decide
  have hps : defaultsOf (windowsPowerShell.generate tickText) "server".toList "tick_ms".toList =
      [⟨"tick_ms".toList, "std::string".toList, "tickMs".toList,
        "\"16 # 60fps target!\"".toList⟩] := by decide
  refine ⟨hreads, hps, by decide, fun h => ?_⟩
  obtain ⟨⟨-, hall⟩, -⟩ := h 16 hreads
  rw [hps] at hall
  have hvalue := (hall _ (List.mem_singleton.mpr rfl)).2.2
  exact absurd hvalue (by decide)

end Highp.Config
