import Mathlib.Data.List.Basic
import Mathlib.Data.List.TakeWhile

/-! Paths of Windows, as `std::filesystem` takes them apart: a root name, a root directory and
names between separators. A path is followed by text alone, without a look at the disk. -/

namespace Highp.Lib.Path

def isSlash (ch : Char) : Bool := ch == '/' || ch == '\\'

/-- What is behind `\?` when that begins with `\??\`. -/
def isDevice : List Char → Bool
  | mark :: slash :: rest => mark == '?' && isSlash slash && rest.head?.all (!isSlash ·)
  | _ => false

/-- A drive or a server; `\\?` and `\\.` count as servers. -/
def rootName : List Char → List Char
  | a :: b :: rest =>
    if a.isAlpha && b == ':' then [a, b]
    else if isSlash a && isSlash b && rest.head?.any (!isSlash ·) then
      a :: b :: rest.takeWhile (!isSlash ·)
    else if isSlash a && b == '?' && isDevice rest then [a, b, '?']
    else []
  | _ => []

/-- Where a path leads. If it is rooted, nothing is above the first name. -/
structure Location where
  rootName : List Char
  rooted : Bool
  names : List (List Char)
  deriving DecidableEq

def dot : List Char := ['.']

def dotDot : List Char := ['.', '.']

/-- One name more. A name that leads upwards stays if nothing is known of what is above. -/
def enter (rooted : Bool) (names : List (List Char)) (name : List Char) : List (List Char) :=
  if name = [] ∨ name = dot then names
  else if name = dotDot then
    match names.getLast? with
    | none => if rooted then [] else [dotDot]
    | some last => if last = dotDot then names ++ [dotDot] else names.dropLast
  else names ++ [name]

def Location.enter (l : Location) (name : List Char) : Location :=
  { l with names := Path.enter l.rooted l.names name }

def relative (path : List Char) : List Char := path.drop (rootName path).length

/-- A server is a root without a root directory too. -/
def rooted (path : List Char) : Bool :=
  (relative path).head?.any isSlash || (rootName path).head?.any isSlash

def follow (rooted : Bool) (path : List Char) : List (List Char) :=
  (path.splitOnP isSlash).foldl (enter rooted) []

/-- The normal form of a path, but for a separator at its end. -/
def location (path : List Char) : Location where
  rootName := (rootName path).map fun ch => if isSlash ch then '\\' else ch
  rooted := rooted path
  names := follow (rooted path) (relative path)

def isDrive : List Char → Bool
  | [letter, colon] => letter.isAlpha && colon == ':'
  | _ => false

/-- `path / name` for a relative path without a root name. No separator goes behind a drive. -/
def join (path name : List Char) : List Char :=
  match path.getLast? with
  | none => name
  | some ch => if isSlash ch || isDrive path then path ++ name else path ++ '\\' :: name

/-- A name of a file or of a directory. -/
structure Ordinary (name : List Char) : Prop where
  nonempty : name ≠ []
  not_dot : name ≠ dot
  not_dotDot : name ≠ dotDot
  plain : ∀ ch ∈ name, isSlash ch = false ∧ ch ≠ ':' ∧ ch ≠ '?'

/-- The paths that are no root name but become one when a name is put behind them: two
separators, and `\??`. -/
def becomesRoot : List Char → Bool
  | [a, b] => isSlash a && isSlash b
  | [a, b, c] => isSlash a && b == '?' && c == '?'
  | _ => false

/-! ## One name more -/

section
variable {path name : List Char}

theorem rootName_prefix_path (path : List Char) : rootName path <+: path := by
  unfold rootName
  split
  · rename_i a b rest
    split_ifs with _ _ hdevice
    · exact ⟨rest, rfl⟩
    · obtain ⟨behind, heq⟩ := List.takeWhile_prefix (l := rest) (!isSlash ·)
      exact ⟨behind, by rw [List.cons_append, List.cons_append, heq]⟩
    · rcases rest with _ | ⟨mark, _ | ⟨slash, rest⟩⟩
      · simp [isDevice] at hdevice
      · simp [isDevice] at hdevice
      · have hmark : mark = '?' := by
          simp only [isDevice, Bool.and_eq_true, beq_iff_eq] at hdevice
          exact hdevice.2.1.1
        exact ⟨slash :: rest, by rw [hmark]; rfl⟩
    · exact List.nil_prefix
  · exact List.nil_prefix

theorem follow_separator (rooted : Bool) (path : List Char)
    (hname : ∀ ch ∈ name, isSlash ch = false) {slash : Char} (hslash : isSlash slash = true) :
    follow rooted (path ++ slash :: name) = enter rooted (follow rooted path) name := by
  rw [follow, List.splitOnP_append_cons _ _ hslash, List.splitOnP_eq_singleton hname,
    List.foldl_append]
  rfl

/-- Behind a separator there is an empty name, which leads nowhere. -/
theorem follow_append (rooted : Bool) {path : List Char}
    (hpath : ∀ ch ∈ path.getLast?, isSlash ch = true) (hname : ∀ ch ∈ name, isSlash ch = false) :
    follow rooted (path ++ name) = enter rooted (follow rooted path) name := by
  rcases List.eq_nil_or_concat' path with rfl | ⟨front, slash, rfl⟩
  · rw [List.nil_append, follow, List.splitOnP_eq_singleton hname]
    rfl
  · have hslash : isSlash slash = true := hpath slash (by simp)
    have hempty : follow rooted (front ++ [slash]) = enter rooted (follow rooted front) [] :=
      follow_separator rooted front (by simp) hslash
    have hstay : enter rooted (follow rooted front) [] = follow rooted front := if_pos (.inl rfl)
    rw [List.append_assoc, List.singleton_append, follow_separator rooted front hname hslash,
      hempty, hstay]

/-- What is put behind a path: a name, with a separator in front of it if the path needs one. -/
def tail (path name : List Char) : List Char :=
  if path.getLast?.all isSlash || isDrive path then name else '\\' :: name

theorem join_eq (path name : List Char) : join path name = path ++ tail path name := by
  unfold join tail
  cases h : path.getLast? with
  | none =>
    rw [List.getLast?_eq_none_iff] at h
    rw [h]
    rfl
  | some ch =>
    simp only [Option.all_some]
    split <;> rfl

theorem tail_of_last {a : Char} {front : List Char} (hlong : 2 ≤ front.length)
    (name : List Char) :
    tail (front ++ [a]) name = if isSlash a then name else '\\' :: name := by
  rcases front with _ | ⟨x, _ | ⟨y, front⟩⟩
  · simp at hlong
  · simp at hlong
  · rw [tail, List.getLast?_concat]
    simp [isDrive]

theorem takeWhile_tail (front : List Char) {path : List Char} (hne : path ≠ [])
    (hlong : 2 ≤ front.length) (name : List Char) :
    (path ++ tail (front ++ path) name).takeWhile (!isSlash ·) = path.takeWhile (!isSlash ·) := by
  rw [List.takeWhile_append]
  split
  · rename_i hall
    rcases List.eq_nil_or_concat' path with rfl | ⟨path, last, rfl⟩
    · exact absurd rfl hne
    have heq := (List.takeWhile_prefix (l := path ++ [last]) (!isSlash ·)).eq_of_length hall
    have hlast : isSlash last = false := by
      have hmem := List.takeWhile_eq_self_iff.mp heq last (by simp)
      simpa using hmem
    rw [heq, ← List.append_assoc, tail_of_last (by rw [List.length_append]; omega), hlast]
    simp [isSlash]
  · rfl

theorem isDevice_tail {a b c : Char} {path : List Char} {n : Char} (hn : isSlash n = false)
    (rest : List Char) (h : c = '?' → path ≠ []) :
    isDevice (c :: path ++ tail (a :: b :: c :: path) (n :: rest)) = isDevice (c :: path) := by
  rcases path with _ | ⟨d, _ | ⟨e, path⟩⟩
  · have hc : c ≠ '?' := fun hc => h hc rfl
    cases tail [a, b, c] (n :: rest) with
    | nil => rfl
    | cons d rest => simp [isDevice, hc]
  · by_cases hd : isSlash d = true
    · have hlast : tail ([a, b, c] ++ [d]) (n :: rest) = _ := tail_of_last (by simp) (n :: rest)
      have htail : tail [a, b, c, d] (n :: rest) = n :: rest := hlast.trans (if_pos hd)
      simp [htail, isDevice, hd, hn]
    · simp [isDevice, hd]
  · rfl

/-- What a root name depends on. -/
theorem rootName_congr {a b : Char} {x y : List Char} (hhead : x.head? = y.head?)
    (hserver : x.takeWhile (!isSlash ·) = y.takeWhile (!isSlash ·))
    (hdevice : isSlash a = true → b = '?' → isDevice x = isDevice y) :
    rootName (a :: b :: x) = rootName (a :: b :: y) := by
  by_cases hab : isSlash a = true ∧ b = '?'
  · rw [rootName, rootName, hhead, hserver, hdevice hab.1 hab.2]
  · have hnot : (isSlash a && b == '?') = false := by simpa using hab
    rw [rootName, rootName, hhead, hserver, hnot, Bool.false_and, Bool.false_and]

theorem rootName_join (hname : ∀ ch ∈ name, isSlash ch = false ∧ ch ≠ ':' ∧ ch ≠ '?')
    (hne : name ≠ []) (h : becomesRoot path = false) :
    rootName (path ++ tail path name) = rootName path := by
  obtain ⟨n, rest, rfl⟩ := List.exists_cons_of_ne_nil hne
  rw [List.forall_mem_cons] at hname
  obtain ⟨⟨hslash, hcolon, hmark⟩, hrest⟩ := hname
  rcases path with _ | ⟨a, _ | ⟨b, _ | ⟨c, path⟩⟩⟩
  · -- a name alone
    rcases rest with _ | ⟨m, rest⟩
    · simp [tail, rootName]
    · rw [List.forall_mem_cons] at hrest
      simp [tail, rootName, hslash, hrest.1.2.1]
  · by_cases ha : isSlash a = true
    · simp [tail, rootName, ha, hslash, hcolon, hmark]
    · simp [tail, rootName, ha, isDrive]
  · by_cases hdrive : a.isAlpha = true ∧ b = ':'
    · simp [tail, rootName, hdrive, isDrive]
    · by_cases hb : isSlash b = true
      · have ha : isSlash a = false := by simpa [becomesRoot, hb] using h
        simp [tail, rootName, hdrive, hb, ha]
      · simp [tail, rootName, hdrive, hb, isDrive, isDevice]
  · refine rootName_congr rfl (takeWhile_tail [a, b] (by simp) (by simp) _) ?_
    intro ha hb
    refine isDevice_tail hslash rest ?_
    rintro rfl rfl
    simp [becomesRoot, ha, hb] at h

theorem relative_join (h : rootName (path ++ tail path name) = rootName path) :
    relative (path ++ tail path name) = relative path ++ tail path name := by
  rw [relative, h, List.drop_append_of_le_length (rootName_prefix_path path).length_le]
  rfl

theorem rootName_append_relative (path : List Char) : rootName path ++ relative path = path :=
  List.prefix_iff_eq_append.mp (rootName_prefix_path path)

theorem isDrive_iff : isDrive path = true ↔
    ∃ letter, path = [letter, ':'] ∧ letter.isAlpha = true := by
  constructor
  · intro h
    rcases path with _ | ⟨a, _ | ⟨b, _ | ⟨c, rest⟩⟩⟩
    · cases h
    · cases h
    · simp only [isDrive, Bool.and_eq_true, beq_iff_eq] at h
      exact ⟨a, by rw [h.2], h.1⟩
    · cases h
  · rintro ⟨letter, rfl, h⟩
    simp [isDrive, h]

/-- A path without a name and without a slash in front is a drive or empty. -/
theorem isDrive_of_root (hroot : relative path = [])
    (hfirst : (rootName path).head?.any isSlash = false) : path = [] ∨ isDrive path = true := by
  have hwhole := rootName_append_relative path
  rw [hroot, List.append_nil] at hwhole
  rcases path with _ | ⟨a, _ | ⟨b, rest⟩⟩
  · exact .inl rfl
  · cases hwhole
  · have ha : isSlash a = false := by simpa [hwhole] using hfirst
    simp only [rootName, ha, Bool.false_and, Bool.false_eq_true, if_false] at hwhole
    split at hwhole
    · rename_i hdrive
      cases hwhole
      exact .inr hdrive
    · cases hwhole

theorem tail_cases (path name : List Char) : tail path name = '\\' :: name ∨
    tail path name = name ∧ ∀ ch ∈ (relative path).getLast?, isSlash ch = true := by
  unfold tail
  split
  · rename_i h
    refine .inr ⟨rfl, fun ch hch => ?_⟩
    rw [relative, List.getLast?_drop] at hch
    split at hch
    · cases hch
    · rename_i hshort
      rcases Bool.or_eq_true_iff.mp h with hall | hdrive
      · rw [Option.mem_def.mp hch] at hall
        exact hall
      · obtain ⟨letter, rfl, hletter⟩ := isDrive_iff.mp hdrive
        simp [rootName, hletter] at hshort
  · exact .inl rfl

theorem rooted_join (hname : ∀ ch ∈ name, isSlash ch = false)
    (h : rootName (path ++ tail path name) = rootName path) :
    rooted (path ++ tail path name) = rooted path := by
  rw [rooted, rooted, relative_join h, h]
  cases hfirst : (rootName path).head?.any isSlash with
  | true => rw [Bool.or_true, Bool.or_true]
  | false =>
    cases hrelative : relative path with
    | cons ch rest => rfl
    | nil =>
      have htail : tail path name = name := by
        rcases isDrive_of_root hrelative hfirst with rfl | hdrive
        · rfl
        · rw [tail, hdrive, Bool.or_true, if_pos rfl]
      rw [htail, List.nil_append]
      cases name with
      | nil => rfl
      | cons ch rest => simpa using hname ch (by simp)

/-- A name that is put behind a path is entered. -/
theorem location_join (hname : ∀ ch ∈ name, isSlash ch = false ∧ ch ≠ ':' ∧ ch ≠ '?')
    (hne : name ≠ []) (h : becomesRoot path = false) :
    location (join path name) = (location path).enter name := by
  have hroot := rootName_join hname hne h
  have hslash : ∀ ch ∈ name, isSlash ch = false := fun ch hch => (hname ch hch).1
  have hfollow : follow (rooted path) (relative path ++ tail path name) =
      enter (rooted path) (follow (rooted path) (relative path)) name := by
    rcases tail_cases path name with htail | ⟨htail, hlast⟩
    · rw [htail, follow_separator _ _ hslash rfl]
    · rw [htail, follow_append _ hlast hslash]
  rw [join_eq, location, hroot, rooted_join hslash hroot, relative_join hroot, hfollow]
  rfl

/-! ## Children -/

/-- A directory that is one ordinary name below another. -/
def Location.ChildOf (l parent : Location) : Prop :=
  ∃ name, Ordinary name ∧ l = { parent with names := parent.names ++ [name] }

/-- A directory below another one. -/
def Location.Below (l parent : Location) : Prop :=
  l.rootName = parent.rootName ∧ l.rooted = parent.rooted ∧ parent.names <+: l.names ∧ l ≠ parent

theorem Location.ChildOf.below {l parent : Location} (h : l.ChildOf parent) : l.Below parent := by
  obtain ⟨name, _, rfl⟩ := h
  refine ⟨rfl, rfl, List.prefix_append _ _, fun heq => ?_⟩
  have hnames := congrArg Location.names heq
  simp at hnames

theorem enter_ordinary (hname : Ordinary name) (l : Location) : (l.enter name).ChildOf l := by
  refine ⟨name, hname, ?_⟩
  have henter : enter l.rooted l.names name = l.names ++ [name] := by
    rw [enter, if_neg (not_or.mpr ⟨hname.nonempty, hname.not_dot⟩), if_neg hname.not_dotDot]
  rw [Location.enter, henter]

theorem enter_dotDot (rooted : Bool) (names : List (List Char)) :
    enter rooted names dotDot = names.dropLast ∨
      enter rooted names dotDot = names ++ [dotDot] := by
  rw [enter, if_neg (by decide), if_pos rfl]
  split
  · rename_i h
    rw [List.getLast?_eq_none_iff] at h
    subst h
    cases rooted with
    | true => exact .inl rfl
    | false => exact .inr rfl
  · split
    · exact .inr rfl
    · exact .inl rfl

/-- A name that leads nowhere or upwards leads to no child. -/
theorem not_childOf_enter (l : Location) (h : name = dot ∨ name = dotDot) :
    ¬ (l.enter name).ChildOf l := by
  rintro ⟨name', hname', heq⟩
  have hnames : enter l.rooted l.names name = l.names ++ [name'] := congrArg Location.names heq
  rcases h with rfl | rfl
  · rw [enter, if_pos (.inr rfl)] at hnames
    simp at hnames
  · rcases enter_dotDot l.rooted l.names with hup | hup
    · have hlength := congrArg List.length (hup.symm.trans hnames)
      rw [List.length_dropLast, List.length_append, List.length_singleton] at hlength
      omega
    · have hsame := List.append_cancel_left (hup.symm.trans hnames)
      exact hname'.not_dotDot (List.singleton_inj.mp hsame).symm

theorem rootName_of_becomesRoot (hname : ∀ ch ∈ name, isSlash ch = false ∧ ch ≠ ':' ∧ ch ≠ '?')
    (hne : name ≠ []) (h : becomesRoot path = true) :
    rootName path = [] ∧ rootName (path ++ tail path name) ≠ [] := by
  obtain ⟨n, rest, rfl⟩ := List.exists_cons_of_ne_nil hne
  have hn : isSlash n = false := (hname n (by simp)).1
  have halpha : ∀ {a}, isSlash a = true → a.isAlpha = false := by
    intro a ha
    simp only [isSlash, Bool.or_eq_true, beq_iff_eq] at ha
    rcases ha with rfl | rfl <;> rfl
  rcases path with _ | ⟨a, _ | ⟨b, _ | ⟨c, _ | ⟨d, path⟩⟩⟩⟩
  · cases h
  · cases h
  · simp only [becomesRoot, Bool.and_eq_true] at h
    simp [rootName, tail, h, hn, halpha h.1, isDevice]
  · simp only [becomesRoot, Bool.and_eq_true, beq_iff_eq] at h
    obtain ⟨⟨ha, rfl⟩, rfl⟩ := h
    have hmark : isSlash '?' = false := rfl
    have hseparator : isSlash '\\' = true := rfl
    simp [rootName, tail, ha, hn, halpha ha, isDevice, isDrive, hmark, hseparator]
  · cases h

/-- A name behind a path leads to a child unless it is one of the two that do not, or the path
becomes a root name. -/
theorem childOf_join_iff (path : List Char)
    (hname : ∀ ch ∈ name, isSlash ch = false ∧ ch ≠ ':' ∧ ch ≠ '?')
    (hne : name ≠ []) :
    (location (join path name)).ChildOf (location path) ↔
      name ≠ dot ∧ name ≠ dotDot ∧ becomesRoot path = false := by
  cases hroot : becomesRoot path with
  | true =>
    refine ⟨fun ⟨name', _, heq⟩ => ?_, fun h => absurd h.2.2 (by simp)⟩
    obtain ⟨hnone, hsome⟩ := rootName_of_becomesRoot hname hne hroot
    have hnames := congrArg Location.rootName heq
    rw [join_eq] at hnames
    simp only [location, hnone, List.map_nil, List.map_eq_nil_iff] at hnames
    exact absurd hnames hsome
  | false =>
    rw [location_join hname hne hroot]
    constructor
    · intro hchild
      refine ⟨fun hdot => ?_, fun hdot => ?_, rfl⟩
      · exact not_childOf_enter _ (.inl hdot) hchild
      · exact not_childOf_enter _ (.inr hdot) hchild
    · rintro ⟨hdot, hdotDot, _⟩
      exact enter_ordinary ⟨hne, hdot, hdotDot, hname⟩ _

end
end Highp.Lib.Path
