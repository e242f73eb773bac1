/-
Module: MallocHook.Lib.PosixPath
Purpose: Paths of a POSIX file system as texts, as Python's posixpath treats them.
Trusted boundary: statement of join, normpath, abspath, basename and splitext of Python's posixpath
Main exports: Path, join, normpath, abspath
-/
import Mathlib.Data.List.DropRight
import Mathlib.Data.List.Infix

namespace PosixPath

open List

/-- A path as text. -/
abbrev Path := List Char

variable (path : Path)

/-- A path that starts at the root. -/
def isAbsolute : Bool := path.head? == some '/'

/-- `os.path.join` of two parts: an absolute second part stands alone. -/
def join (path part : Path) : Path :=
  if isAbsolute part then part
  else if path = [] ∨ path.getLast? = some '/' then path ++ part
  else path ++ '/' :: part

/-- How many leading slashes `normpath` keeps: exactly two are left as they are, three and more are one. -/
def leadingSlashes : Path → Nat
  | '/' :: '/' :: '/' :: _ => 1
  | '/' :: '/' :: _ => 2
  | '/' :: _ => 1
  | _ => 0

/-- The components kept so far, the last one first, and the next one. -/
def pushComponent (rooted : Bool) (kept : List Path) (component : Path) : List Path :=
  if component = [] ∨ component = ['.'] then kept
  else if component ≠ ['.', '.'] ∨ (!rooted && kept.isEmpty) ∨
    kept.head? = some ['.', '.'] then component :: kept
  else kept.tail

/-- `os.path.normpath`. -/
def normpath : Path :=
  let slashes := leadingSlashes path
  let kept := (path.splitOn '/').foldl (pushComponent (slashes != 0)) []
  let normal := List.replicate slashes '/' ++ ['/'].intercalate kept.reverse
  if normal = [] then ['.'] else normal

/-- `os.path.abspath`, from a working directory. -/
def abspath (cwd path : Path) : Path := normpath (if isAbsolute path then path else join cwd path)

/-- `os.path.basename`: what stands behind the last slash. -/
def basename : Path := path.rtakeWhile (· != '/')

/-- What stands before the last component, with its slash. -/
def directory : Path := path.rdropWhile (· != '/')

/-- `os.path.splitext`: the extension starts at the last dot of the last component, unless only dots are
before it. -/
def splitext : Path × Path :=
  let name := basename path
  let stem := (name.rdropWhile (· != '.')).dropLast
  if stem.any (· != '.') then (directory path ++ stem, '.' :: name.rtakeWhile (· != '.')) else (path, [])

/-- A path with the slash that ends a directory's name. -/
def asDirectory : Path := if path.getLast? = some '/' then path else path ++ ['/']

/-- The file is at the path or below it. -/
def Under (path file : Path) : Prop := file = path ∨ asDirectory path <+: file

instance (path file : Path) : Decidable (Under path file) := inferInstanceAs (Decidable (_ ∨ _))

theorem normpath_ne_nil : normpath path ≠ [] := by
  simp only [normpath]
  split <;> simp_all

theorem abspath_ne_nil (cwd path : Path) : abspath cwd path ≠ [] := normpath_ne_nil _

/-- A name without a slash is the last component, behind a directory or alone. -/
theorem basename_append {directory name : Path} (closed : directory = [] ∨ directory.getLast? = some '/')
    (plain : '/' ∉ name) : basename (directory ++ name) = name := by
  have inName : ∀ c ∈ name.reverse, (c != '/') = true := by
    intro c member
    rw [bne_iff_ne]
    rintro rfl
    exact plain (mem_reverse.1 member)
  have stops : directory.reverse.takeWhile (· != '/') = [] := by
    rcases closed with rfl | last
    · rfl
    · obtain ⟨front, rfl⟩ := List.getLast?_eq_some_iff.1 last
      simp
  rw [basename, List.rtakeWhile, reverse_append, takeWhile_append_of_pos inName, stops, append_nil,
    reverse_reverse]

theorem slash_notMem_basename : '/' ∉ basename path := by
  intro member
  have inName := mem_rtakeWhile_imp member
  simp at inName

theorem directory_closed : directory path = [] ∨ (directory path).getLast? = some '/' := by
  by_cases empty : directory path = []
  · exact .inl empty
  · have stops := rdropWhile_last_not _ path empty
    have last : (directory path).getLast empty = '/' := by simpa [directory] using stops
    exact .inr (by rw [List.getLast?_eq_some_getLast empty, last])

/-- The extension is cut off within the last component. -/
theorem splitext_spec :
    ∃ stem extension, splitext path = (directory path ++ stem, extension) ∧ '/' ∉ stem ∧
    '/' ∉ extension := by
  have plain := slash_notMem_basename path
  unfold splitext
  dsimp only
  split
  · refine ⟨_, _, rfl, fun member => plain ?_, fun member => plain ?_⟩
    · have front := rdropWhile_prefix (· != '.') (basename path)
      exact front.subset (mem_of_mem_dropLast member)
    · exact (rtakeWhile_suffix _ _).subset ((mem_cons.1 member).resolve_left (by decide))
  · exact ⟨basename path, [], by rw [directory, basename, rdropWhile_append_rtakeWhile], plain, not_mem_nil⟩

end PosixPath
