import Highp.Config.Integers
import Highp.Config.Quoted

/-! The settings of the servers: what the environment and the configuration file make of them. -/

set_option linter.dupNamespace false

namespace Highp.Config

/-- The variables of the process; one that is not set has no value. -/
abbrev Environment := List Char → Option (List Char)

/-! ## `Config` -/

structure Config where
  result : TomlParseResult

namespace Config

def fromString (content : List Char) : Config := ⟨TomlParser.parse content⟩

/-- `FromFile`. A file that cannot be opened has no content. -/
def fromFile (file : Option (List Char)) : Option Config := file.map fromString

/-- `GetEnv`: a variable that is not set is an empty one. -/
def getEnv (env : Environment) (name : List Char) : List Char := (env name).getD []

/-- `Int`. -/
def int (c : Config) (env : Environment) (key : List Char) (defaultValue : Int)
    (envVar : Option (List Char)) : Int :=
  let parsed :=
    match envVar with
    | none => none
    | some name =>
      let value := getEnv env name
      if value = [] then none else parseInt value
  match parsed with
  | some number => number
  | none => (c.result.findInt key).getD defaultValue

end Config

/-! ## `NetworkCfg` -/

namespace NetworkCfg

structure Server where
  port : Int
  maxClients : Int
  backlog : Int
  tickMs : Int
  deriving DecidableEq, Repr

structure Room where
  maxCapacity : Int
  deriving DecidableEq, Repr

structure Thread where
  maxWorkerThreadMultiplier : Int
  maxAcceptorThreadCount : Int
  desirableIocpThreadCount : Int
  deriving DecidableEq, Repr

namespace Server.Defaults
def port : Int := 8080
def maxClients : Int := 1000
def backlog : Int := 10
def tickMs : Int := 16
end Server.Defaults

namespace Room.Defaults
def maxCapacity : Int := 100
end Room.Defaults

namespace Thread.Defaults
def maxWorkerThreadMultiplier : Int := 2
def maxAcceptorThreadCount : Int := 2
def desirableIocpThreadCount : Int := -1
end Thread.Defaults

end NetworkCfg

open NetworkCfg in
structure NetworkCfg where
  server : Server
  room : Room
  thread : Thread
  deriving DecidableEq, Repr

namespace NetworkCfg

def fromCfg (env : Environment) (cfg : Config) : NetworkCfg where
  server :=
    { port := cfg.int env "server.port".toList Server.Defaults.port (some "SERVER_PORT".toList)
      maxClients := cfg.int env "server.max_clients".toList Server.Defaults.maxClients
        (some "SERVER_MAX_CLIENTS".toList)
      backlog := cfg.int env "server.backlog".toList Server.Defaults.backlog
        (some "SERVER_BACKLOG".toList)
      tickMs := cfg.int env "server.tick_ms".toList Server.Defaults.tickMs
        (some "SERVER_TICK_MS".toList) }
  room :=
    { maxCapacity := cfg.int env "room.max_capacity".toList Room.Defaults.maxCapacity
        (some "ROOM_MAX_CAPACITY".toList) }
  thread :=
    { maxWorkerThreadMultiplier := cfg.int env "thread.max_worker_thread_multiplier".toList
        Thread.Defaults.maxWorkerThreadMultiplier
        (some "THREAD_MAX_WORKER_THREAD_MULTIPLIER".toList)
      maxAcceptorThreadCount := cfg.int env "thread.max_acceptor_thread_count".toList
        Thread.Defaults.maxAcceptorThreadCount (some "THREAD_MAX_ACCEPTOR_THREAD_COUNT".toList)
      desirableIocpThreadCount := cfg.int env "thread.desirable_iocp_thread_count".toList
        Thread.Defaults.desirableIocpThreadCount
        (some "THREAD_DESIRABLE_IOCP_THREAD_COUNT".toList) }

/-- `FromFile`; `none` is the `std::runtime_error`. -/
def fromFile (env : Environment) (file : Option (List Char)) : Option NetworkCfg :=
  (Config.fromFile file).map (fromCfg env)

def withDefaults : NetworkCfg where
  server := ⟨Server.Defaults.port, Server.Defaults.maxClients, Server.Defaults.backlog,
    Server.Defaults.tickMs⟩
  room := ⟨Room.Defaults.maxCapacity⟩
  thread := ⟨Thread.Defaults.maxWorkerThreadMultiplier, Thread.Defaults.maxAcceptorThreadCount,
    Thread.Defaults.desirableIocpThreadCount⟩

/-! ## The members by their names -/

/-- A member of one of the structs. -/
inductive Name
  | port
  | maxClients
  | backlog
  | tickMs
  | maxCapacity
  | maxWorkerThreadMultiplier
  | maxAcceptorThreadCount
  | desirableIocpThreadCount
  deriving DecidableEq, Repr

def get (c : NetworkCfg) : Name → Int
  | .port => c.server.port
  | .maxClients => c.server.maxClients
  | .backlog => c.server.backlog
  | .tickMs => c.server.tickMs
  | .maxCapacity => c.room.maxCapacity
  | .maxWorkerThreadMultiplier => c.thread.maxWorkerThreadMultiplier
  | .maxAcceptorThreadCount => c.thread.maxAcceptorThreadCount
  | .desirableIocpThreadCount => c.thread.desirableIocpThreadCount

namespace Name

def sectionName : Name → List Char
  | .port | .maxClients | .backlog | .tickMs => "server".toList
  | .maxCapacity => "room".toList
  | .maxWorkerThreadMultiplier | .maxAcceptorThreadCount | .desirableIocpThreadCount =>
    "thread".toList

def key : Name → List Char
  | .port => "port".toList
  | .maxClients => "max_clients".toList
  | .backlog => "backlog".toList
  | .tickMs => "tick_ms".toList
  | .maxCapacity => "max_capacity".toList
  | .maxWorkerThreadMultiplier => "max_worker_thread_multiplier".toList
  | .maxAcceptorThreadCount => "max_acceptor_thread_count".toList
  | .desirableIocpThreadCount => "desirable_iocp_thread_count".toList

/-- Section and key in capital letters. -/
def envVar (name : Name) : List Char :=
  (name.sectionName ++ '_' :: name.key).map Char.toUpper

end Name

theorem get_fromCfg (env : Environment) (cfg : Config) (name : Name) :
    (fromCfg env cfg).get name =
      cfg.int env (name.sectionName ++ '.' :: name.key) (withDefaults.get name)
        (some name.envVar) := by
  cases name <;> rfl

end NetworkCfg

/-! ## What a file says -/

/-- Blanks, tabs and the CR of a line end. -/
def White (str : List Char) : Prop := ∀ c ∈ str, isWhitespace c = true

/-- The value of an assignment: what is behind the equals sign, without comment and blanks. -/
def valueOf (rest : List Char) : List Char := trim (rest.takeWhile fun c => c ≠ '#')

/-- The lines assign these settings, in this order, in a section to begin with. -/
inductive Written : List Char → List (List Char) → List Setting → Prop
  | nil {sec : List Char} : Written sec [] []
  | blank {sec : List Char} {lines : List (List Char)} {settings : List Setting}
      (line : List Char) : White line → Written sec lines settings →
      Written sec (line :: lines) settings
  | comment {sec : List Char} {lines : List (List Char)} {settings : List Setting}
      (front rest : List Char) : White front → Written sec lines settings →
      Written sec ((front ++ '#' :: rest) :: lines) settings
  | header {sec : List Char} {lines : List (List Char)} {settings : List Setting}
      (front name rest : List Char) : White front → Word name → Written name lines settings →
      Written sec ((front ++ ('[' :: name ++ ']' :: rest)) :: lines) settings
  | assign {sec : List Char} {lines : List (List Char)} {settings : List Setting}
      (front key gap rest : List Char) : White front → Word key → White gap →
      Written sec lines settings →
      Written sec ((front ++ (key ++ gap ++ '=' :: rest)) :: lines)
        (⟨sec, key, valueOf rest⟩ :: settings)

/-- The text stands for a number that an `int` holds. -/
def Stands (text : List Char) (n : Int) : Prop := Numeral text n ∧ Fits 32 n

/-- The digits of the text, as far as they go, are within the range of an `int`. -/
def Sized (text : List Char) : Prop :=
  decimal ((unsigned text).takeWhile isDigit) < 2 ^ 31

instance (text : List Char) : Decidable (Sized text) :=
  inferInstanceAs (Decidable (_ < _))

/-- The first value that the settings give to a name. -/
def assigned (settings : List Setting) (name : NetworkCfg.Name) : Option (List Char) :=
  (settings.find? fun s => s.sectionName == name.sectionName && s.key == name.key).map
    Setting.value

/-- Where a member's number comes from: from the environment, else from the file, else it is the
default. -/
inductive Resolved (env : Environment) (settings : List Setting) (name : NetworkCfg.Name)
    (n : Int) : Prop
  | environment (text : List Char) : env name.envVar = some text → Stands text n →
      Resolved env settings name n
  | file (text : List Char) : (∀ t m, env name.envVar = some t → ¬ Stands t m) →
      assigned settings name = some text → Stands text n → Resolved env settings name n
  | default : (∀ t m, env name.envVar = some t → ¬ Stands t m) →
      (∀ t m, assigned settings name = some t → ¬ Stands t m) →
      n = NetworkCfg.withDefaults.get name → Resolved env settings name n

/-! ## Lines -/

section
variable {front gap key rest line : List Char} {st : TomlParseResult × List Char}

theorem White.append (h : White front) (h' : White gap) : White (front ++ gap) := by
  intro c hc
  rcases List.mem_append.mp hc with hc | hc
  · exact h c hc
  · exact h' c hc

theorem trim_white (h : White line) : trim line = [] := by
  have hnil : trim (line ++ []) = trim [] := trim_prepend h []
  rw [List.append_nil] at hnil
  rw [hnil]
  rfl

/-- A character that is no blank keeps what is in front of it. -/
theorem trimRight_solid {c : Char} (hc : isWhitespace c = false) (front rest : List Char) :
    trimRight (front ++ c :: rest) = front ++ c :: trimRight rest := by
  induction rest using List.reverseRecOn with
  | nil =>
    rw [trimRight_concat hc]
    rfl
  | append_singleton rest d ih =>
    have hsplit : front ++ c :: (rest ++ [d]) = (front ++ c :: rest) ++ [d] := by simp
    unfold trimRight at ih ⊢
    rw [hsplit]
    cases hd : isWhitespace d with
    | true => rw [List.rdropWhile_concat_pos _ _ _ hd, List.rdropWhile_concat_pos _ _ _ hd, ih]
    | false =>
      rw [List.rdropWhile_concat_neg _ _ _ (by simp [hd]),
        List.rdropWhile_concat_neg _ _ _ (by simp [hd]), ← hsplit]

theorem trimLeft_solid {c : Char} (hc : isWhitespace c = false) (front rest : List Char) :
    trimLeft (front ++ c :: rest) = trimLeft front ++ c :: rest := by
  unfold trimLeft
  induction front with
  | nil => rw [List.nil_append, List.dropWhile_cons_of_neg (by simp [hc])]; rfl
  | cons d front ih =>
    rw [List.cons_append]
    cases hd : isWhitespace d with
    | true => rw [List.dropWhile_cons_of_pos hd, List.dropWhile_cons_of_pos hd, ih]
    | false =>
      rw [List.dropWhile_cons_of_neg (by simp [hd]), List.dropWhile_cons_of_neg (by simp [hd])]
      rfl

theorem trim_trimRight (str : List Char) : trim (trimRight str) = trim str := by
  induction str using List.reverseRecOn with
  | nil => rfl
  | append_singleton str c ih =>
    cases hc : isWhitespace c with
    | true =>
      have hskip : trimRight (str ++ [c]) = trimRight str := List.rdropWhile_concat_pos _ _ _ hc
      rw [hskip, ih, trim_concat hc]
    | false => rw [trimRight_concat hc]

/-- The comment of a value is cut off. -/
theorem cut_comment (rest : List Char) :
    (StringUtils.find (trim rest) '#' = none ∧ trim rest = valueOf rest) ∨
      ∃ commentPos, StringUtils.find (trim rest) '#' = some commentPos ∧
        trim (substr (trim rest) 0 commentPos) = valueOf rest := by
  unfold valueOf
  by_cases hhash : '#' ∈ rest
  · right
    obtain ⟨a, b, rfl, ha⟩ := List.eq_append_cons_of_mem hhash
    have htake : (a ++ '#' :: b).takeWhile (fun c => decide (c ≠ '#')) = a := by
      rw [List.takeWhile_append_of_pos, List.takeWhile_cons_of_neg (by simp), List.append_nil]
      exact fun c hc => decide_eq_true fun heq => ha (heq ▸ hc)
    have htrim : trim (a ++ '#' :: b) = trimLeft a ++ '#' :: trimRight b := by
      rw [trim, trimLeft_solid (by decide), trimRight_solid (by decide)]
    have hfront : '#' ∉ trimLeft a := fun h => ha (List.dropWhile_subset _ h)
    have hagain : trim (trimLeft a) = trim a := by
      unfold trim trimLeft
      rw [List.dropWhile_idempotent]
    rw [htrim, find_first hfront, htake]
    exact ⟨_, rfl, by rw [substr_front, hagain]⟩
  · left
    have hall : rest.takeWhile (fun c => decide (c ≠ '#')) = rest := by
      rw [List.takeWhile_eq_self_iff]
      exact fun c hc => decide_eq_true fun heq => hhash (heq ▸ hc)
    refine ⟨find_none fun h => hhash ?_, by rw [hall]⟩
    exact List.dropWhile_subset _ (trimRight_subset _ h)

/-- A line with a name on it, whatever is behind its bracket. -/
theorem parseLine_header (hfront : White front) (h : Word key) :
    TomlParser.parseLine st (front ++ ('[' :: key ++ ']' :: rest)) = (st.1, key) := by
  have htrim : trim (front ++ ('[' :: key ++ ']' :: rest)) =
      '[' :: key ++ ']' :: trimRight rest := by
    rw [trim_prepend hfront, List.cons_append, trim_cons (by decide), trimRight_solid (by decide)]
    rfl
  have hclose : StringUtils.find ('[' :: key ++ ']' :: trimRight rest) ']' =
      some (key.length + 1) := by
    have hopen : ']' ∉ '[' :: key := by
      rw [List.mem_cons]
      rintro (h' | h')
      · exact absurd h' (by decide)
      · exact h.not_mem (by decide) h'
    exact find_first hopen _
  have hpos := List.length_pos_of_ne_nil h.1
  have hlong : ¬ (('[' :: key ++ ']' :: trimRight rest).length < 3 ∨
      ('[' :: key ++ ']' :: trimRight rest).head? ≠ some '[') := by
    rintro (h' | h')
    · simp only [List.length_append, List.length_cons] at h'
      omega
    · exact h' rfl
  have hname : substr ('[' :: key ++ ']' :: trimRight rest) 1 key.length = key := by
    simp [substr]
  unfold TomlParser.parseLine
  simp only [htrim]
  rw [if_pos (by rfl), if_pos (by rfl), TomlParser.parseSection, if_neg hlong, hclose]
  show (st.1, trim (substr ('[' :: key ++ ']' :: trimRight rest) 1 key.length)) = (st.1, key)
  rw [hname, h.trim]

theorem parseKeyValue_assign (h : Word key) (hgap : White gap) (rest sec : List Char) :
    ∃ ioType, TomlParser.parseKeyValue (key ++ gap ++ '=' :: trimRight rest) sec =
      some ⟨sec, key, valueOf rest, ioType⟩ := by
  have hfront : '=' ∉ key ++ gap := by
    rw [List.mem_append]
    rintro (h' | h')
    · exact h.not_mem (by decide) h'
    · exact absurd (hgap _ h') (by decide)
  have hkey : trim (key ++ gap) = key := by rw [trim_append hgap, h.trim]
  unfold TomlParser.parseKeyValue
  rw [find_first hfront]
  simp only [substr_front, drop_front, hkey, trim_trimRight]
  rcases cut_comment rest with ⟨hcut, hvalue⟩ | ⟨commentPos, hcut, hvalue⟩
  · simp only [hcut]
    rw [hvalue]
    exact ⟨_, rfl⟩
  · simp only [hcut, hvalue]
    exact ⟨_, rfl⟩

/-- A key, an equals sign, and whatever is behind it. -/
theorem parseLine_assign (hfront : White front) (h : Word key) (hgap : White gap)
    (rest : List Char) (st : TomlParseResult × List Char) :
    ∃ ioType, TomlParser.parseLine st (front ++ (key ++ gap ++ '=' :: rest)) =
      (st.1.add ⟨st.2, key, valueOf rest, ioType⟩, st.2) := by
  obtain ⟨c, cs, rfl⟩ := List.exists_cons_of_ne_nil h.1
  have hc : isWordChar c = true := h.2 c (List.mem_cons_self ..)
  have htrim : trim (front ++ (c :: cs ++ gap ++ '=' :: rest)) =
      c :: cs ++ gap ++ '=' :: trimRight rest := by
    rw [trim_prepend hfront, List.cons_append, List.cons_append, trim_cons (isWordChar_solid hc),
      trimRight_solid (by decide)]
    rfl
  have hcomment : (c :: cs ++ gap ++ '=' :: trimRight rest).head?.any (fun c => c ≠ '#') =
      true := by
    rw [List.cons_append, List.cons_append, List.head?_cons, Option.any_some, decide_eq_true_eq]
    rintro rfl
    exact absurd hc (by decide)
  have hopen : ¬ (c :: cs ++ gap ++ '=' :: trimRight rest).head? = some '[' := by
    intro heq
    cases heq
    exact absurd hc (by decide)
  obtain ⟨ioType, hkv⟩ := parseKeyValue_assign h hgap rest st.2
  refine ⟨ioType, ?_⟩
  unfold TomlParser.parseLine
  simp only [htrim]
  rw [if_pos hcomment, if_neg hopen, hkv]

theorem parseLine_skipped (h : White line) : TomlParser.parseLine st line = st := by
  unfold TomlParser.parseLine
  simp only [trim_white h]
  exact if_neg (by simp)

theorem parseLine_comment (hfront : White front) :
    TomlParser.parseLine st (front ++ '#' :: rest) = st := by
  have htrim : trim (front ++ '#' :: rest) = '#' :: trimRight rest := by
    rw [trim_prepend hfront, trim_cons (by decide)]
  unfold TomlParser.parseLine
  simp only [htrim]
  exact if_neg (by simp)

end

/-! ## A whole file -/

/-- An entry without its type. -/
def TomlEntry.setting (e : TomlEntry) : Setting := ⟨e.sectionName, e.key, e.value⟩

/-- The parser has the assignments of the lines, in their order. -/
theorem Written.foldl {sec : List Char} {lines : List (List Char)} {settings : List Setting}
    (h : Written sec lines settings) (res : TomlParseResult) :
    (lines.foldl TomlParser.parseLine (res, sec)).1.entries.map TomlEntry.setting =
      res.entries.map TomlEntry.setting ++ settings := by
  induction h generalizing res with
  | nil => simp
  | blank line hline _ ih => rw [List.foldl_cons, parseLine_skipped hline, ih]
  | comment front rest hfront _ ih => rw [List.foldl_cons, parseLine_comment hfront, ih]
  | header front name rest hfront hname _ ih =>
    rw [List.foldl_cons, parseLine_header hfront hname, ih]
  | assign front key gap rest hfront hkey hgap _ ih =>
    rw [List.foldl_cons]
    obtain ⟨ioType, hline⟩ := parseLine_assign hfront hkey hgap rest (res, _)
    rw [hline, ih]
    simp [TomlParseResult.add, TomlEntry.setting]

section
variable {env : Environment} {content : List Char} {settings : List Setting}
  {name : NetworkCfg.Name}

theorem Written.entries (h : Written [] (content.splitOn '\n') settings) :
    (TomlParser.parse content).entries.map TomlEntry.setting = settings := by
  rw [parse_eq_foldl, h.foldl]
  rfl

/-- What is found is what was assigned first. -/
theorem Written.findInt (h : Written [] (content.splitOn '\n') settings)
    (name : NetworkCfg.Name) :
    (TomlParser.parse content).findInt (name.sectionName ++ '.' :: name.key) =
      (assigned settings name).bind parseInt := by
  have hdot : '.' ∉ name.sectionName := by cases name <;> decide
  have hfind : ∀ entries : List TomlEntry,
      (entries.find? fun e => e.sectionName == name.sectionName && e.key == name.key).map
        TomlEntry.setting = (entries.map TomlEntry.setting).find?
          fun s => s.sectionName == name.sectionName && s.key == name.key := by
    intro entries
    rw [List.find?_map]
    rfl
  unfold TomlParseResult.findInt assigned
  rw [TomlParseResult.findEntry_eq, splitName_dot hdot, TomlParseResult.firstOf, ← h.entries,
    ← hfind, Option.map_map, Option.bind_map]
  rfl

/-- A text of the right size is parsed as the number it stands for. -/
theorem Sized.parseInt_iff {text : List Char} (h : Sized text) (n : Int) :
    parseInt text = some n ↔ Stands text n :=
  parsed_exactly (by decide) h n

/-- What `Int` asks the environment for. -/
theorem int_eq (c : Config) (env : Environment) (key : List Char) (defaultValue : Int)
    (name : List Char) :
    c.int env key defaultValue (some name) =
      (((env name).bind parseInt).or (c.result.findInt key)).getD defaultValue := by
  have hparsed : (if Config.getEnv env name = [] then none else parseInt (Config.getEnv env name)) =
      (env name).bind parseInt := by
    unfold Config.getEnv
    cases env name with
    | none => rfl
    | some value =>
      rw [Option.getD_some, Option.bind_some]
      by_cases hvalue : value = []
      · rw [if_pos hvalue, hvalue]
        decide
      · rw [if_neg hvalue]
  unfold Config.int
  simp only [hparsed]
  cases (env name).bind parseInt with
  | none => rfl
  | some number => rfl

theorem get_eq (hw : Written [] (content.splitOn '\n') settings) (name : NetworkCfg.Name) :
    (NetworkCfg.fromCfg env (.fromString content)).get name =
      (((env name.envVar).bind parseInt).or ((assigned settings name).bind parseInt)).getD
        (NetworkCfg.withDefaults.get name) := by
  rw [NetworkCfg.get_fromCfg, int_eq, ← hw.findInt]
  rfl

/-- A text that is not parsed stands for nothing. -/
theorem parse_none {found : Option (List Char)} (hsized : ∀ text, found = some text → Sized text)
    (h : found.bind parseInt = none) : ∀ t m, found = some t → ¬ Stands t m := by
  intro t m ht hm
  rw [ht, Option.bind_some, ((hsized t ht).parseInt_iff m).mpr hm] at h
  cases h

theorem parse_some {found : Option (List Char)} (hsized : ∀ text, found = some text → Sized text)
    {n : Int} (h : found.bind parseInt = some n) : ∃ text, found = some text ∧ Stands text n := by
  obtain ⟨text, hfound, hn⟩ := Option.bind_eq_some_iff.mp h
  exact ⟨text, hfound, ((hsized text hfound).parseInt_iff n).mp hn⟩

theorem get_resolved (hw : Written [] (content.splitOn '\n') settings)
    (henv : ∀ text, env name.envVar = some text → Sized text)
    (hfile : ∀ text, assigned settings name = some text → Sized text) :
    Resolved env settings name ((NetworkCfg.fromCfg env (.fromString content)).get name) := by
  rw [get_eq hw]
  cases he : (env name.envVar).bind parseInt with
  | some n =>
    obtain ⟨text, htext, hn⟩ := parse_some henv he
    exact .environment text htext hn
  | none =>
    have hsilent := parse_none henv he
    cases hf : (assigned settings name).bind parseInt with
    | some n =>
      obtain ⟨text, htext, hn⟩ := parse_some hfile hf
      exact .file text hsilent htext hn
    | none => exact .default hsilent (parse_none hfile hf) rfl

/-- A numeral stands for one number. -/
theorem Stands.unique {text : List Char} {m n : Int} (hm : Stands text m) (hn : Stands text n) :
    m = n := by
  rw [((numeral_iff text m).mp hm.1).2.2, ((numeral_iff text n).mp hn.1).2.2]

/-- Where a number comes from leaves no choice. -/
theorem Resolved.unique {m n : Int} (hm : Resolved env settings name m)
    (hn : Resolved env settings name n) : m = n := by
  cases hm with
  | environment t ht hs =>
    cases hn with
    | environment t' ht' hs' =>
      rw [ht] at ht'
      cases ht'
      exact hs.unique hs'
    | file _ hsilent => exact absurd hs (hsilent t m ht)
    | default hsilent => exact absurd hs (hsilent t m ht)
  | file t hsilent ht hs =>
    cases hn with
    | environment t' ht' hs' => exact absurd hs' (hsilent t' n ht')
    | file t' _ ht' hs' =>
      rw [ht] at ht'
      cases ht'
      exact hs.unique hs'
    | default _ hnothing => exact absurd hs (hnothing t m ht)
  | default hsilent hnothing hm =>
    cases hn with
    | environment t' ht' hs' => exact absurd hs' (hsilent t' n ht')
    | file t' _ ht' hs' => exact absurd hs' (hnothing t' n ht')
    | default _ _ hn => rw [hm, hn]

theorem NetworkCfg.ext_get {c c' : NetworkCfg} (h : ∀ name, c.get name = c'.get name) :
    c = c' := by
  obtain ⟨⟨port, maxClients, backlog, tickMs⟩, ⟨maxCapacity⟩, ⟨multiplier, acceptors, threads⟩⟩ := c
  obtain ⟨⟨port', maxClients', backlog', tickMs'⟩, ⟨maxCapacity'⟩,
    ⟨multiplier', acceptors', threads'⟩⟩ := c'
  have h₁ : port = port' := h .port
  have h₂ : maxClients = maxClients' := h .maxClients
  have h₃ : backlog = backlog' := h .backlog
  have h₄ : tickMs = tickMs' := h .tickMs
  have h₅ : maxCapacity = maxCapacity' := h .maxCapacity
  have h₆ : multiplier = multiplier' := h .maxWorkerThreadMultiplier
  have h₇ : acceptors = acceptors' := h .maxAcceptorThreadCount
  have h₈ : threads = threads' := h .desirableIocpThreadCount
  rw [h₁, h₂, h₃, h₄, h₅, h₆, h₇, h₈]

end

/-- **The settings are those of the environment, of the file, or the defaults**, in this order, for
every layout of the file, and no others are. -/
theorem settings_resolved (env : Environment) (content : List Char) (settings : List Setting)
    (hw : Written [] (content.splitOn '\n') settings)
    (henv : ∀ name : NetworkCfg.Name, ∀ text, env name.envVar = some text → Sized text)
    (hfile : ∀ name text, assigned settings name = some text → Sized text) (cfg : NetworkCfg) :
    NetworkCfg.fromFile env (some content) = some cfg ↔
      ∀ name, Resolved env settings name (cfg.get name) := by
  have hread : ∀ name, Resolved env settings name
      ((NetworkCfg.fromCfg env (.fromString content)).get name) :=
    fun name => get_resolved hw (henv name) (hfile name)
  constructor
  · intro h
    cases h
    exact hread
  · intro h
    have hcfg : NetworkCfg.fromCfg env (.fromString content) = cfg :=
      NetworkCfg.ext_get fun name => (hread name).unique (h name)
    rw [← hcfg]
    rfl

/-- A file with comments, two kinds of line ends and a value that is no number. -/
def smallFile : List Char :=
  "# limits\n[server]\r\nport = 8080 # http\r\n".toList ++
    "\ttick_ms=20\n\n[room] # one\nmax_capacity = many\n".toList

def smallSettings : List Setting :=
  [⟨"server".toList, "port".toList, "8080".toList⟩,
   ⟨"server".toList, "tick_ms".toList, "20".toList⟩,
   ⟨"room".toList, "max_capacity".toList, "many".toList⟩]

def smallVariables : Environment := fun name =>
  if name = "SERVER_PORT".toList then some "9000".toList
  else if name = "SERVER_BACKLOG".toList then some []
  else none

theorem smallFile_written : Written [] (smallFile.splitOn '\n') smallSettings := by
  have hlines : smallFile.splitOn '\n' = ["# limits".toList, "[server]\r".toList,
      "port = 8080 # http\r".toList, "\ttick_ms=20".toList, [], "[room] # one".toList,
      "max_capacity = many".toList, []] := by decide +kernel
  have hword : ∀ name ∈ ["server".toList, "port".toList, "tick_ms".toList, "room".toList,
      "max_capacity".toList], Word name := by
    simp only [List.forall_mem_cons]
    refine ⟨?_, ?_, ?_, ?_, ?_, nofun⟩
    all_goals exact ⟨by decide +kernel, List.all_eq_true.mp (by decide +kernel)⟩
  rw [hlines]
  refine .comment [] " limits".toList nofun ?_
  refine .header [] "server".toList ['\r'] nofun (hword _ (by decide +kernel)) ?_
  refine .assign [] "port".toList [' '] " 8080 # http\r".toList nofun (hword _ (by decide +kernel))
    (List.all_eq_true.mp (by decide)) ?_
  refine .assign ['\t'] "tick_ms".toList [] "20".toList (List.all_eq_true.mp (by decide))
    (hword _ (by decide +kernel)) nofun ?_
  refine .blank [] nofun ?_
  refine .header [] "room".toList " # one".toList nofun (hword _ (by decide +kernel)) ?_
  refine .assign [] "max_capacity".toList [' '] " many".toList nofun (hword _ (by decide +kernel))
    (List.all_eq_true.mp (by decide)) ?_
  exact .blank [] nofun .nil

/-- The port is the environment's, the ticks are the file's, and the rooms have their default. -/
def smallCfg : NetworkCfg := ⟨⟨9000, 1000, 10, 20⟩, ⟨100⟩, ⟨2, 2, -1⟩⟩

theorem small_settings_resolved :
    NetworkCfg.fromFile smallVariables (some smallFile) = some smallCfg ∧
      Resolved smallVariables smallSettings .port 9000 ∧
      Resolved smallVariables smallSettings .tickMs 20 ∧
      Resolved smallVariables smallSettings .maxCapacity 100 := by
  have hread : NetworkCfg.fromFile smallVariables (some smallFile) = some smallCfg := by
    refine congrArg some (NetworkCfg.ext_get fun name => ?_)
    rw [get_eq smallFile_written]
    cases name <;> decide +kernel
  have hresolved : ∀ name, Resolved smallVariables smallSettings name (smallCfg.get name) := by
    refine (settings_resolved smallVariables smallFile smallSettings smallFile_written ?_ ?_ _).mp
      hread
    · intro name text htext
      simp only [smallVariables] at htext
      split at htext
      · cases htext
        decide +kernel
      · split at htext
        · cases htext
          decide +kernel
        · cases htext
    · intro name text htext
      obtain ⟨s, hs, rfl⟩ := Option.map_eq_some_iff.mp htext
      have hall : ∀ s ∈ smallSettings, Sized s.value := by decide +kernel
      exact hall s (List.mem_of_find?_eq_some hs)
  exact ⟨hread, hresolved .port, hresolved .tickMs, hresolved .maxCapacity⟩

end Highp.Config
