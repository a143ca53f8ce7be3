import Mathlib.Data.List.Infix
import ConduitClient.Py.Text

/-!
# Paths

Pure paths as `pathlib` keeps them, with the rules of POSIX and those of Windows: a path is a
drive, a root and parts, and joining a text to it may add parts, or replace some or all of it.
A path may contain `..`, and joining does not touch it. Where a path leads is a matter of the
operating system (`ConduitClient/Py/Names.lean`).
-/

namespace Py

/-- The rules that the paths of a host follow. -/
inductive Flavour where
  | posix | windows
  deriving DecidableEq, Repr

/-- A `PurePath`: its drive, which only Windows has, its root, which is empty for a path that
is relative to the current directory, and its parts. -/
structure PurePath where
  drive : String
  root : String
  parts : List String
  deriving DecidableEq, Repr

/-- The parts of a path text. Empty parts and `.` are dropped, `..` is not. -/
def components (s : String) : List String :=
  ((s.toList.splitOn '/').map String.ofList).filter fun c => c ≠ "" ∧ c ≠ "."

/-- What is behind the next separator. -/
def skipPart (cs : List Char) : List Char := (cs.dropWhile (· ≠ '/')).drop 1

/-- What is behind the drive of a Windows path that is written with slashes: behind the share
of a UNC path, behind the colon of a drive letter, or all of it. A separator in front does not
matter to the components. This is `ntpath.splitroot` of Python 3.12; Python 3.11 sees no drive
in a text like `1:x` and no share in one like `//x`. -/
def behindDrive (cs : List Char) : List Char :=
  match cs with
  | '/' :: '/' :: share =>
    if (cs.take 8).map Char.toUpper = ['/', '/', '?', '/', 'U', 'N', 'C', '/'] then
      skipPart (skipPart (cs.drop 8))
    else skipPart (skipPart share)
  | '/' :: rest => rest
  | _ :: ':' :: rest => rest
  | cs => cs

/-- `PureWindowsPath(s).parts` without the anchor, as of Python 3.12. -/
def windowsComponents (s : String) : List String :=
  components (String.ofList (behindDrive (s.toList.map fun c => if c = '\\' then '/' else c)))

/-- The drive of a UNC path or a device path, and its root: `pathlib` gives one to a bare share.
The first `front` characters are no part of the server's name. -/
def uncAnchor (cs : List Char) (front : Nat) : List Char × List Char :=
  let server := (cs.drop front).takeWhile (· ≠ '/')
  match (cs.drop front).dropWhile (· ≠ '/') with
  | [] => (cs, [])
  | _ :: rest =>
    let share := rest.takeWhile (· ≠ '/')
    let bare := front = 2 ∧ String.ofList server ∈ ["", "?", ".", "?."]
    (cs.take front ++ server ++ '/' :: share,
      if rest.dropWhile (· ≠ '/') = [] ∧ (share = [] ∨ bare) then [] else ['/'])

/-- The drive and the root of a Windows path that is written with slashes
(`ntpath.splitroot`, as of Python 3.12). -/
def anchor (cs : List Char) : List Char × List Char :=
  match cs with
  | '/' :: '/' :: _ =>
    if (cs.take 8).map Char.toUpper = ['/', '/', '?', '/', 'U', 'N', 'C', '/'] then
      uncAnchor cs 8
    else uncAnchor cs 2
  | '/' :: _ => ([], ['/'])
  | d :: ':' :: '/' :: _ => ([d, ':'], ['/'])
  | d :: ':' :: _ => ([d, ':'], [])
  | _ => ([], [])

/-- The text of a drive or a root, with the separator of Windows. -/
def backslashed (cs : List Char) : String :=
  String.ofList (cs.map fun c => if c = '/' then '\\' else c)

/-- The separators a path text keeps in front: one, or exactly two. -/
def pathRoot (s : String) : String :=
  match s.toList with
  | '/' :: '/' :: '/' :: _ => "/"
  | '/' :: '/' :: _ => "//"
  | '/' :: _ => "/"
  | _ => ""

/-- `str(Path(s))`, on POSIX. -/
def pathText (s : String) : String :=
  strOrDot (pathRoot s ++ "/".intercalate (components s))
where
  /-- The empty path is the current directory. -/
  strOrDot (t : String) : String := if t = "" then "." else t

/-- A single component of a path, which is no way up: the name of an entry of a directory. -/
def Plain (f : Flavour) (c : String) : Prop :=
  c ≠ "" ∧ c ≠ "." ∧ c ≠ ".." ∧ '/' ∉ c.toList ∧
    (f = .windows → '\\' ∉ c.toList ∧ c.toList[1]? ≠ some ':')

instance (f : Flavour) (c : String) : Decidable (Plain f c) :=
  inferInstanceAs (Decidable (_ ∧ _))

namespace PurePath

/-- The absolute path of a POSIX host with these parts. -/
def rooted (parts : List String) : PurePath := { drive := "", root := "/", parts := parts }

/-- The path with one more part. -/
def child (p : PurePath) (c : String) : PurePath := { p with parts := p.parts ++ [c] }

/-- `p / s` on Windows (`ntpath.join`): a rooted `s` keeps at most the drive of `p`, and one with
another drive keeps nothing. -/
def joinWindows (p : PurePath) (s : String) : PurePath :=
  let (drive, root) := anchor (s.toList.map fun c => if c = '\\' then '/' else c)
  if root ≠ [] then
    { drive := if drive = [] then p.drive else backslashed drive
      root := "\\"
      parts := windowsComponents s }
  else if drive ≠ [] ∧ lower (backslashed drive) ≠ lower p.drive then
    { drive := backslashed drive, root := "", parts := windowsComponents s }
  else
    { p with
      drive := if drive = [] then p.drive else backslashed drive
      parts := p.parts ++ windowsComponents s }

/-- `p / s`: an absolute `s` replaces `p`. -/
def join (f : Flavour) (p : PurePath) (s : String) : PurePath :=
  match f with
  | .posix =>
    if s.toList.head? = some '/' then { drive := "", root := pathRoot s, parts := components s }
    else { p with parts := p.parts ++ components s }
  | .windows => p.joinWindows s

/-- `Path(s)`. -/
def parse (f : Flavour) (s : String) : PurePath :=
  ({ drive := "", root := "", parts := [] } : PurePath).join f s

/-- `p.parent`. -/
def parent (p : PurePath) : PurePath := { p with parts := p.parts.dropLast }

/-- `str(p)`, for a path that is not empty. -/
def text (f : Flavour) (p : PurePath) : String :=
  p.drive ++ p.root ++ (match f with | .posix => "/" | .windows => "\\").intercalate p.parts

end PurePath

/-! ### Lemmas -/

/-- A separator at the end adds no component. -/
theorem components_concat_slash (cs : List Char) :
    components (String.ofList (cs ++ ['/'])) = components (String.ofList cs) := by
  have hsplit : (cs ++ ['/']).splitOn '/' = cs.splitOn '/' ++ [[]] := by
    simp only [List.splitOn_eq_splitOnP]
    exact List.splitOnP_append_cons cs [] (beq_self_eq_true '/')
  simp [components, hsplit]

theorem skipPart_concat_slash (cs : List Char) :
    skipPart (cs ++ ['/']) = skipPart cs ++ ['/'] ∨
      (skipPart (cs ++ ['/']) = [] ∧ skipPart cs = []) := by
  induction cs with
  | nil => exact Or.inr ⟨rfl, rfl⟩
  | cons c cs ih =>
    by_cases hc : c = '/'
    · subst hc
      exact Or.inl rfl
    · simpa [skipPart, hc] using ih

theorem skipParts_concat_slash (cs : List Char) :
    skipPart (skipPart (cs ++ ['/'])) = skipPart (skipPart cs) ++ ['/'] ∨
      (skipPart (skipPart (cs ++ ['/'])) = [] ∧ skipPart (skipPart cs) = []) := by
  rcases skipPart_concat_slash cs with he | ⟨he, he'⟩
  · rw [he]
    exact skipPart_concat_slash (skipPart cs)
  · rw [he, he']
    exact Or.inr ⟨rfl, rfl⟩

/-- The share of a short UNC text has no second separator. -/
theorem skipParts_short {share : List Char}
    (h : share.map Char.toUpper = ['?', '/', 'U', 'N', 'C']) :
    skipPart (skipPart share) = [] := by
  have hne {c d : Char} (hc : c.toUpper = d) (hd : d ≠ '/') : c ≠ '/' := by
    rintro rfl
    exact hd hc.symm
  obtain ⟨c₁, t₁, rfl, h₁, h⟩ := List.map_eq_cons_iff.mp h
  obtain ⟨c₂, t₂, rfl, h₂, h⟩ := List.map_eq_cons_iff.mp h
  obtain ⟨c₃, t₃, rfl, h₃, h⟩ := List.map_eq_cons_iff.mp h
  obtain ⟨c₄, t₄, rfl, h₄, h⟩ := List.map_eq_cons_iff.mp h
  obtain ⟨c₅, t₅, rfl, h₅, h⟩ := List.map_eq_cons_iff.mp h
  obtain rfl := List.map_eq_nil_iff.mp h
  have n₁ := hne h₁ (by decide)
  have n₃ := hne h₃ (by decide)
  have n₄ := hne h₄ (by decide)
  have n₅ := hne h₅ (by decide)
  by_cases n₂ : c₂ = '/' <;> simp [skipPart, n₁, n₂, n₃, n₄, n₅]

theorem behindDrive_concat_slash (cs : List Char) :
    behindDrive (cs ++ ['/']) = behindDrive cs ++ ['/'] ∨
      (behindDrive (cs ++ ['/']) = [] ∧ behindDrive cs = []) := by
  match cs with
  | [] => exact Or.inr ⟨rfl, rfl⟩
  | [c] =>
    by_cases hc : c = '/'
    · subst hc
      exact Or.inr (by decide)
    · exact Or.inl (by simp [behindDrive, hc])
  | c :: d :: rest =>
    by_cases hc : c = '/'
    · by_cases hd : d = '/'
      · subst hc hd
        simp only [behindDrive, List.cons_append]
        by_cases hlong : 8 ≤ ('/' :: '/' :: rest).length
        · -- the front of the path decides, and it is the same
          have htake : ('/' :: '/' :: rest ++ ['/']).take 8 = ('/' :: '/' :: rest).take 8 :=
            List.take_append_of_le_length hlong
          have hdrop : ('/' :: '/' :: rest ++ ['/']).drop 8 =
              ('/' :: '/' :: rest).drop 8 ++ ['/'] :=
            List.drop_append_of_le_length hlong
          rw [List.cons_append, List.cons_append] at htake hdrop
          rw [htake, hdrop]
          split
          · exact skipParts_concat_slash _
          · exact skipParts_concat_slash rest
        · -- only the separator may complete the front `//?/UNC/`
          have hshort : ('/' :: '/' :: rest).length < 8 := Nat.lt_of_not_le hlong
          have hno : (('/' :: '/' :: rest).take 8).map Char.toUpper ≠
              ['/', '/', '?', '/', 'U', 'N', 'C', '/'] := by
            intro he
            have hlen := congrArg List.length he
            rw [List.length_map, List.length_take] at hlen
            simp only [List.length_cons, List.length_nil] at hlen hshort
            omega
          rw [if_neg hno]
          split
          · next he =>
            -- it does: then nothing is behind the front, with it or without
            have hdrop : ('/' :: '/' :: (rest ++ ['/'])).drop 8 = [] := by
              rw [List.drop_eq_nil_iff]
              simp only [List.length_cons, List.length_append, List.length_nil] at hshort ⊢
              omega
            have hfront : rest.map Char.toUpper = ['?', '/', 'U', 'N', 'C'] := by
              rw [List.take_of_length_le (List.drop_eq_nil_iff.mp hdrop)] at he
              simp only [List.map_cons, List.map_append, List.map_nil, List.cons.injEq] at he
              have hback : rest.map Char.toUpper ++ [Char.toUpper '/'] =
                  ['?', '/', 'U', 'N', 'C'] ++ ['/'] := he.2.2
              exact (List.append_inj' hback rfl).1
            rw [hdrop]
            exact Or.inr ⟨rfl, skipParts_short hfront⟩
          · exact skipParts_concat_slash rest
      · exact Or.inl (by simp [behindDrive, hc, hd])
    · by_cases hd : d = ':'
      · exact Or.inl (by simp [behindDrive, hd])
      · exact Or.inl (by simp [behindDrive, hc, hd])

/-- A separator at the end of a Windows path adds no component either. -/
theorem windowsComponents_append_slash (s : String) :
    windowsComponents (s ++ "/") = windowsComponents s := by
  rw [windowsComponents, windowsComponents, String.toList_append, List.map_append]
  rcases behindDrive_concat_slash (s.toList.map fun c => if c = '\\' then '/' else c) with
    he | ⟨he, he'⟩
  · exact (congrArg (fun cs => components (String.ofList cs)) he).trans
      (components_concat_slash _)
  · exact congrArg (fun cs => components (String.ofList cs)) (he.trans he'.symm)

theorem components_plain {f : Flavour} {c : String} (h : Plain f c) : components c = [c] := by
  obtain ⟨hne, hdot, -, hslash, -⟩ := h
  rw [components, List.splitOn_eq_singleton hslash]
  simp [hne, hdot]

/-- A text without separators and without a drive is its own only part. -/
theorem behindDrive_plain {cs : List Char} (hslash : '/' ∉ cs) (hcolon : cs[1]? ≠ some ':') :
    behindDrive cs = cs ∧ anchor cs = ([], []) := by
  rcases cs with - | ⟨c, - | ⟨d, rest⟩⟩
  · exact ⟨rfl, rfl⟩
  · have hc : c ≠ '/' := fun he => hslash (by simp [he])
    simp [behindDrive, anchor, hc]
  · have hc : c ≠ '/' := fun he => hslash (by simp [he])
    have hd : d ≠ ':' := fun he => hcolon (by simp [he])
    simp [behindDrive, anchor, hc, hd]

theorem anchor_plain {c : String} (h : Plain .windows c) :
    anchor (c.toList.map fun c => if c = '\\' then '/' else c) = ([], []) ∧
      windowsComponents c = [c] := by
  obtain ⟨hback, hcolon⟩ := h.2.2.2.2 rfl
  -- there is no backslash to rewrite
  have hmap : (c.toList.map fun c => if c = '\\' then '/' else c) = c.toList := by
    refine (List.map_congr_left fun d hd => ?_).trans (List.map_id _)
    exact if_neg fun he : d = '\\' => hback (he ▸ hd)
  obtain ⟨hbehind, hanchor⟩ := behindDrive_plain h.2.2.2.1 hcolon
  rw [windowsComponents, hmap, hbehind, String.ofList_toList]
  exact ⟨hanchor, components_plain h⟩

/-- The parts of an absolute text of plain names are these names. -/
theorem components_absolute {names : List String} (h : ∀ c ∈ names, Plain .posix c) :
    components ("/" ++ "/".intercalate names) = names := by
  have hlist : ("/" ++ "/".intercalate names).toList =
      [] ++ '/' :: ['/'].intercalate (names.map String.toList) := by
    rw [String.toList_append, String.toList_intercalate]
    rfl
  have hsplit : ("/" ++ "/".intercalate names).toList.splitOn '/' =
      [] :: (['/'].intercalate (names.map String.toList)).splitOn '/' := by
    rw [hlist]
    simp only [List.splitOn_eq_splitOnP]
    exact List.splitOnP_append_cons [] _ (beq_self_eq_true '/')
  rw [components, hsplit]
  -- the text in front of the first separator is empty, and dropped
  cases hn : names with
  | nil => decide
  | cons c cs =>
    have hno : ∀ l ∈ names.map String.toList, '/' ∉ l := by
      intro l hl
      obtain ⟨d, hd, rfl⟩ := List.mem_map.mp hl
      exact (h d hd).2.2.2.1
    have hkeep : names.filter (fun c => decide (c ≠ "" ∧ c ≠ ".")) = names := by
      rw [List.filter_eq_self]
      intro d hd
      simpa using ⟨(h d hd).1, (h d hd).2.1⟩
    rw [← hn, List.splitOn_intercalate '/' hno (by simp [hn])]
    simpa [Function.comp_def] using hkeep

/-- Such a text has a single separator in front. -/
theorem pathRoot_absolute {names : List String} (h : ∀ c ∈ names, Plain .posix c) :
    pathRoot ("/" ++ "/".intercalate names) = "/" := by
  have hlist : ("/" ++ "/".intercalate names).toList =
      '/' :: ['/'].intercalate (names.map String.toList) := by
    rw [String.toList_append, String.toList_intercalate]
    rfl
  rw [pathRoot, hlist]
  rcases names with - | ⟨c, names⟩
  · rfl
  · -- the first name does not begin with another
    obtain ⟨hne, -, -, hslash, -⟩ := h c List.mem_cons_self
    obtain ⟨d, ds, hd⟩ : ∃ d ds, c.toList = d :: ds := by
      refine List.exists_cons_of_ne_nil fun he => hne ?_
      exact String.toList_eq_nil_iff.mp he
    have hd' : d ≠ '/' := fun he => hslash (by simp [hd, he])
    have hfront : ∃ ds', ['/'].intercalate ((c :: names).map String.toList) = d :: ds' := by
      rcases names with - | ⟨c', names⟩
      · exact ⟨ds, by simp [hd]⟩
      · exact ⟨_, by rw [List.map_cons, List.map_cons, List.intercalate_cons_cons, hd]; rfl⟩
    obtain ⟨ds', hds⟩ := hfront
    rw [hds]
    simp [hd']

namespace PurePath

variable {f : Flavour} {p : PurePath} {c : String}

/-- Joining a plain name adds it. -/
theorem join_plain (h : Plain f c) : p.join f c = p.child c := by
  cases f with
  | posix =>
    have hhead : c.toList.head? ≠ some '/' := fun hh => h.2.2.2.1 (List.mem_of_mem_head? hh)
    rw [join, if_neg hhead, components_plain h, child]
  | windows =>
    obtain ⟨hanchor, hparts⟩ := anchor_plain h
    rw [join, joinWindows, hanchor, hparts]
    simp [child]

@[simp] theorem parent_child (p : PurePath) (c : String) : (p.child c).parent = p := by
  simp [parent, child]

@[simp] theorem rooted_child (parts : List String) (c : String) :
    (rooted parts).child c = rooted (parts ++ [c]) := rfl

theorem text_rooted (parts : List String) :
    (rooted parts).text .posix = "/" ++ "/".intercalate parts := by
  rw [text, rooted, String.empty_append]

/-- The text of an absolute path begins with the separator. -/
theorem head_text (parts : List String) :
    ((rooted parts).text .posix).toList.head? = some '/' := by
  rw [text_rooted, String.toList_append]
  rfl

/-- An absolute path of plain names is read back from its text. -/
theorem parse_text {parts : List String} (h : ∀ c ∈ parts, Plain .posix c) :
    parse .posix ((rooted parts).text .posix) = rooted parts := by
  have hhead := head_text parts
  rw [text_rooted] at hhead
  rw [text_rooted, parse, join, if_pos hhead, components_absolute h, pathRoot_absolute h, rooted]

end PurePath

/-- The rules of Windows: a drive or a root in the text leaves the path behind. -/
example :
    (PurePath.mk "C:" "\\" ["cache", "bin"]).join .windows "..\\x" =
        ⟨"C:", "\\", ["cache", "bin", "..", "x"]⟩ ∧
      (PurePath.mk "C:" "\\" ["cache", "bin"]).join .windows "\\tools" =
        ⟨"C:", "\\", ["tools"]⟩ ∧
      (PurePath.mk "C:" "\\" ["cache", "bin"]).join .windows "D:tools" =
        ⟨"D:", "", ["tools"]⟩ := by
  decide +kernel

end Py
