import Highp.Config.Toml
import Mathlib.Logic.Function.Basic

/-! The scripts that generate `NetworkCfg.h`. Both read the same file as `TomlParser`, with regular
expressions of their own, and write the value of each key into a nested struct `Defaults`. -/

namespace Highp.Config

/-- What a script gets from its regular expressions and its locale: the classes of characters and
the case mappings. As `=` is neither a word character nor a blank and no character is both, greedy
matching is matching. -/
structure Ctype where
  space : Char → Bool
  word : Char → Bool
  digit : Char → Bool
  upper : Char → Char
  lower : Char → Char
  word_eq : word '=' = false
  space_eq : space '=' = false
  word_space : ∀ c, word c = true → space c = false
  word_bar : word '|' = false
  word_newline : word '\n' = false
  case_sign : ∀ c d, d = '|' ∨ d = '\n' → upper c = d ∨ lower c = d → c = d
  digit_ascii : ∀ c, isDigit c = true → digit c = true

/-- A number without its sign. -/
def magnitude (value : List Char) : List Char :=
  match value with
  | '-' :: rest => rest
  | _ => value

namespace Ctype
variable (ct : Ctype)

def trim (str : List Char) : List Char := (str.dropWhile ct.space).rdropWhile ct.space

/-- `^\[(\w+)\]$`. -/
def matchHeader (line : List Char) : Option (List Char) :=
  match line with
  | '[' :: rest =>
    if rest.getLast? = some ']' ∧ rest.dropLast ≠ [] ∧ rest.dropLast.all ct.word then
      some rest.dropLast
    else none
  | _ => none

/-- `^(\w+)\s*=\s*(.+)$`, of a trimmed line. -/
def matchPair (line : List Char) : Option (List Char × List Char) :=
  let key := line.takeWhile ct.word
  match (line.dropWhile ct.word).dropWhile ct.space with
  | '=' :: rest =>
    let value := rest.dropWhile ct.space
    if key = [] ∨ value = [] then none else some (key, value)
  | _ => none

/-- `^-?\d+$`. -/
def matchInt (value : List Char) : Bool := magnitude value ≠ [] && (magnitude value).all ct.digit

/-- `^-?\d+\.\d+$`. -/
def matchDouble (value : List Char) : Bool :=
  let whole := (magnitude value).takeWhile ct.digit
  match (magnitude value).dropWhile ct.digit with
  | '.' :: fraction => whole ≠ [] && fraction ≠ [] && fraction.all ct.digit
  | _ => false

end Ctype

/-- A line as a script reads it. -/
inductive Event
  | header (name : List Char)
  | pair (key value : List Char)
  | nothing
  deriving DecidableEq

/-- `static constexpr <cppType> <camelCase> = <value>;` in a struct `Defaults`. -/
structure Member where
  key : List Char
  cppType : List Char
  camelCase : List Char
  value : List Char
  deriving DecidableEq

/-- `struct <structName> { …; struct Defaults { … }; } <sectionName>;`. -/
structure Struct where
  structName : List Char
  sectionName : List Char
  defaults : List Member
  deriving DecidableEq

/-! ## `parse_network_cfg.ps1` -/

/-- `sameName` compares the keys of an `[ordered]` dictionary, which takes upper and lower case for
the same. -/
structure PowerShell extends Ctype where
  sameName : List Char → List Char → Bool
  same_refl : ∀ s, sameName s s = true
  same_symm : ∀ s t, sameName s t = true → sameName t s = true
  same_trans : ∀ s t u, sameName s t = true → sameName t u = true → sameName s u = true

namespace PowerShell
variable (ps : PowerShell)

/-- The lines of `Get-Content`, with an empty one behind the last line end. -/
def pieces : List Char → List (List Char)
  | [] => [[]]
  | '\r' :: '\n' :: rest => [] :: pieces rest
  | c :: rest =>
    if c = '\r' ∨ c = '\n' then [] :: pieces rest else (pieces rest).modifyHead (c :: ·)

/-- `Get-Content`, which takes a byte order mark away. -/
def getContent (text : List Char) : List (List Char) :=
  let text := if text.head? = some '\uFEFF' then text.tail else text
  let lines := pieces text
  if lines.getLast? = some [] then lines.dropLast else lines

def convertToPascalCase (text : List Char) : List Char :=
  (text.splitOn '_').flatMap fun part =>
    match part with
    | [] => []
    | c :: rest => ps.upper c :: rest.map ps.lower

def convertToCamelCase (text : List Char) : List Char :=
  match ps.convertToPascalCase text with
  | [] => []
  | c :: rest => ps.lower c :: rest

def getCppType (value : List Char) : List Char :=
  if ps.matchInt value then "int".toList
  else if ps.matchDouble value then "double".toList
  else if ps.sameName value "true".toList || ps.sameName value "false".toList then "bool".toList
  else "std::string".toList

/-- The type is one of the four above, so that upper and lower case do not matter. -/
def formatCppValue (value type : List Char) : List Char :=
  if type = "std::string".toList then '"' :: value ++ ['"'] else value

/-- The part of the loop over the lines that only looks at the line. -/
def event (line : List Char) : Event :=
  let line := ps.trim line
  if line = [] ∨ line.head? = some '#' then .nothing
  else
    match ps.matchHeader line with
    | some name => .header name
    | none =>
      match ps.matchPair line with
      | some (key, value) =>
        .pair key (((ps.trim value).dropWhile (· == '"')).rdropWhile (· == '"'))
      | none => .nothing

/-- `$sections`, in order, and `$currentSection`. An entry is a key and its value; type and camel
case are functions of these. -/
structure State where
  sections : List (List Char × List (List Char × List Char))
  currentSection : Option (List Char)

/-- `$sections[$name] = @()`: a known name keeps its place and its spelling. -/
def reset (sections : List (List Char × List (List Char × List Char))) (name : List Char) :
    List (List Char × List (List Char × List Char)) :=
  if sections.any (fun s => ps.sameName s.1 name) then
    sections.map fun s => if ps.sameName s.1 name then (s.1, []) else s
  else sections ++ [(name, [])]

/-- `$sections[$name] += …`. -/
def append (sections : List (List Char × List (List Char × List Char)))
    (name : List Char) (entry : List Char × List Char) :
    List (List Char × List (List Char × List Char)) :=
  sections.map fun s => if ps.sameName s.1 name then (s.1, s.2 ++ [entry]) else s

def step (st : State) : Event → State
  | .header name => ⟨ps.reset st.sections name, some name⟩
  | .pair key value =>
    match st.currentSection with
    | some name => { st with sections := ps.append st.sections name (key, value) }
    | none => st
  | .nothing => st

def events (text : List Char) : List Event := (getContent text).map ps.event

def member (entry : List Char × List Char) : Member :=
  let type := ps.getCppType entry.2
  ⟨entry.1, type, ps.convertToCamelCase entry.1, formatCppValue entry.2 type⟩

/-- A hash table as a string. -/
def hashtable : List Char := "System.Collections.Hashtable".toList

/-- What the script generates for the sections. An entry `keys` stands in front of the property:
`$sections.Keys` is then its array of hash tables, and none of these is the key of a section. -/
def generate (text : List Char) : List Struct :=
  let sections := ((ps.events text).foldl ps.step ⟨[], none⟩).sections
  match sections.find? fun s => ps.sameName s.1 "Keys".toList with
  | some s => s.2.map fun _ => ⟨ps.convertToPascalCase hashtable, hashtable, []⟩
  | none => sections.map fun s => ⟨ps.convertToPascalCase s.1, s.1, s.2.map ps.member⟩

end PowerShell

/-! ## `parse_network_cfg.sh` -/

namespace Bash
variable (ct : Ctype)

/-- `echo` with one argument, which may be an option. -/
def echo (arg : List Char) : List Char :=
  match arg with
  | '-' :: options =>
    if options ≠ [] ∧ options.all (fun c => c == 'n' || c == 'e' || c == 'E') then [] else arg
  | _ => arg

/-- `while IFS= read -r line`: null characters are dropped, and so is what stands behind the last
line end. -/
def readLines (text : List Char) : List (List Char) :=
  ((text.filter fun c => c ≠ '\x00').splitOn '\n').dropLast

def toPascalCase (text : List Char) : List Char :=
  echo ((text.splitOn '_').flatMap fun part =>
    match part with
    | [] => []
    | c :: rest => ct.upper c :: rest)

def toCamelCase (text : List Char) : List Char :=
  match toPascalCase ct text with
  | [] => []
  | c :: rest => echo (ct.lower c :: rest)

def getCppType (value : List Char) : List Char :=
  if ct.matchInt value then "INT".toList
  else if ct.matchDouble value then "double".toList
  else if value = "true".toList ∨ value = "false".toList then "bool".toList
  else "std::string".toList

def formatCppValue (value type : List Char) : List Char :=
  if type = "std::string".toList then '"' :: value ++ ['"'] else echo value

/-- `sed 's/^[[:space:]]*"//;s/"[[:space:]]*$//'`. -/
def unquote (value : List Char) : List Char :=
  let value :=
    match value.dropWhile ct.space with
    | '"' :: rest => rest
    | _ => value
  let front := value.rdropWhile ct.space
  if front.getLast? = some '"' then front.dropLast else value

def event (line : List Char) : Event :=
  let line := ct.trim (echo line)
  if line = [] ∨ line.head? = some '#' then .nothing
  else
    match ct.matchHeader line with
    | some name => .header name
    | none =>
      match ct.matchPair line with
      | some (key, value) => .pair key (unquote ct (echo value))
      | none => .nothing

/-- The associative array, the order and the current section. The data of a section are its
records, one a line. -/
structure State where
  sections : List Char → List Char
  sectionOrder : List (List Char)
  currentSection : List Char

def record (key value : List Char) : List Char :=
  key ++ '|' :: value ++ '|' :: getCppType ct value ++ '|' :: toCamelCase ct key

def step (st : State) : Event → State
  | .header name =>
    ⟨Function.update st.sections name [], st.sectionOrder ++ [name], name⟩
  | .pair key value =>
    if st.currentSection = [] then st
    else
      let data := st.sections st.currentSection
      let data := if data = [] then data else data ++ ['\n']
      { st with sections :=
          Function.update st.sections st.currentSection (data ++ record ct key value) }
  | .nothing => st

def events (text : List Char) : List Event := (readLines text).map (event ct)

/-- The field in front of the first bar, and what is behind it. -/
def field (record : List Char) : List Char × List Char :=
  (record.takeWhile (· ≠ '|'), (record.dropWhile (· ≠ '|')).tail)

/-- The last variable gets the rest, but for a single bar that ends it. -/
def lastField (rest : List Char) : List Char :=
  if rest.getLast? = some '|' ∧ '|' ∉ rest.dropLast then rest.dropLast else rest

/-- `IFS='|' read -r key value cpp_type camel_case`, and the value as it is printed. -/
def member (record : List Char) : Member :=
  let (key, rest) := field record
  let (value, rest) := field rest
  let (cppType, rest) := field rest
  ⟨key, cppType, lastField rest, formatCppValue value cppType⟩

/-- What the script generates for the sections. -/
def generate (text : List Char) : List Struct :=
  let st := (events ct text).foldl (step ct) ⟨fun _ => [], [], []⟩
  st.sectionOrder.map fun name =>
    ⟨toPascalCase ct name, name,
      if st.sections name = [] then [] else ((st.sections name).splitOn '\n').map member⟩

end Bash

end Highp.Config
