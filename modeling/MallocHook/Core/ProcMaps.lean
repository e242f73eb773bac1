/-
Module: MallocHook.Core.ProcMaps
Purpose: The lines of maps and the headers of smaps: the functions that pick them apart, and how the
  kernel writes them.
Trusted boundary: translation of IsGpuNodePath, MapsLinePath, LinkNamesDmaBuf and of the formats
  given to sscanf in backtrace/src/ObservedMemory.cpp; the kernel's format of a maps line
Main exports: isGpuNodePath, mapsLinePath, scanRange, MapsRegion
-/
import MallocHook.Core.ConfigInit
import MallocHook.Lib.Scanf

namespace MallocHook

open List

/-! ### C strings -/

/-- What the C functions see of a line in a buffer: the characters before the first NUL. -/
def cString (line : List Char) : CString := line.takeWhile (· ≠ '\x00')

/-- `strstr`: the text from the first occurrence on. -/
def strstr (needle : CString) : CString → Option CString
  | [] => if needle = [] then some [] else none
  | c :: rest => if needle.isPrefixOf (c :: rest) then some (c :: rest) else strstr needle rest

theorem cString_of_not_mem {line : List Char} (plain : '\x00' ∉ line) : cString line = line := by
  apply takeWhile_eq_self_iff.2
  intro c member
  simpa using ne_of_mem_of_not_mem member plain

/-- An occurrence does not begin where its first character is not. -/
theorem strstr_append {c : Char} {needle front : CString} (clear : c ∉ front) (text : CString) :
    strstr (c :: needle) (front ++ text) = strstr (c :: needle) text := by
  induction front with
  | nil => rfl
  | cons a front ih =>
      obtain ⟨differs, later⟩ := not_or.1 (mem_cons.not.1 clear)
      have elsewhere : ¬(c :: needle).isPrefixOf (a :: (front ++ text)) := by simp [differs]
      rw [cons_append, strstr, if_neg elsewhere, ih later]

theorem strstr_self {c : Char} {needle : CString} (rest : CString) :
    strstr (c :: needle) (c :: needle ++ rest) = some (c :: needle ++ rest) :=
  if_pos <| isPrefixOf_iff_prefix.2 (prefix_append ..)

theorem strstr_isSome {needle text : CString} : (strstr needle text).isSome = true ↔ needle <:+: text := by
  induction text with
  | nil =>
      unfold strstr
      split <;> simp_all
  | cons c text ih =>
      unfold strstr
      rw [infix_cons_iff, ← ih]
      split
      · next begins => simp_all
      · next elsewhere =>
          simp_all

/-! ### Names -/

def kGpuNodePaths : List String := ["/dev/kgsl-3d0", "/dev/kgsl", "/kgsl-3d0", "/kgsl"]

/-- `IsGpuNodePath`. -/
def isGpuNodePath (path : CString) : Bool :=
  kGpuNodePaths.any fun node =>
    node.toList.isPrefixOf path &&
      (path.drop node.toList.length == [] || path.drop node.toList.length == " (deleted)".toList)

/-- `LinkNamesDmaBuf`. -/
def linkNamesDmaBuf (target : CString) : Bool :=
  "/dmabuf".toList.isPrefixOf target || "anon_inode:dmabuf".toList.isPrefixOf target

/-! ### Fields -/

def isFieldBlank (c : Char) : Bool := c == ' ' || c == '\t'

/-- Skip fields and the blanks after each, as long as something follows. -/
def skipFields : Nat → CString → Option CString
  | 0, line => some line
  | fields + 1, line =>
      let rest := (line.dropWhile fun c => !isFieldBlank c).dropWhile isFieldBlank
      if rest = [] then none else skipFields fields rest

/-- `MapsLinePath`: the sixth field, up to the end of the line. -/
def mapsLinePath (line : CString) : Option CString := skipFields 5 line

/-- `sscanf` with "%lx-%lx": two addresses and what follows them. -/
def scanRange (line : CString) : Option (UInt64 × UInt64 × CString) := do
  let (start, rest) ← Scanf.unsigned 16 line
  let rest ← Scanf.literal '-' rest
  let (stop, rest) ← Scanf.unsigned 16 rest
  return (start, stop, rest)

/-! ### What the kernel writes -/

/-- The permissions of a region. -/
structure MapsPerms where
  readable : Bool
  writable : Bool
  executable : Bool
  shared : Bool
deriving DecidableEq, Repr

def MapsPerms.text (perms : MapsPerms) : List Char :=
  [if perms.readable then 'r' else '-', if perms.writable then 'w' else '-',
    if perms.executable then 'x' else '-', if perms.shared then 's' else 'p']

/-- A mapped region: `width` digits in an address, `padding` blanks before the path, which an anonymous
region has not. -/
structure MapsRegion where
  start : UInt64
  stop : UInt64
  perms : MapsPerms
  offset : UInt64
  devMajor : Nat
  devMinor : Nat
  inode : UInt64
  width : Nat
  padding : Nat
  path : List Char
  apart : path ≠ [] → 0 < padding

namespace MapsRegion

variable (region : MapsRegion)

def dev : List Char := Scanf.numeral 16 2 region.devMajor ++ ':' :: Scanf.numeral 16 2 region.devMinor

/-- What follows the inode. -/
def tail : List Char := List.replicate region.padding ' ' ++ region.path

/-- From the blank before the inode on. -/
def fromInode : List Char := ' ' :: (Scanf.numeral 10 0 region.inode.toNat ++ region.tail)

def fromDev : List Char := ' ' :: (region.dev ++ region.fromInode)

def fromOffset : List Char := ' ' :: (Scanf.numeral 16 region.width region.offset.toNat ++ region.fromDev)

def fromPerms : List Char := ' ' :: (region.perms.text ++ region.fromOffset)

/-- The line of a region. -/
def header : List Char :=
  Scanf.numeral 16 region.width region.start.toNat ++
    '-' :: (Scanf.numeral 16 region.width region.stop.toNat ++ region.fromPerms)

end MapsRegion

/-! ### The lines are read back -/

namespace MapsRegion

variable {region : MapsRegion}

theorem endsNumber_cons {base : Nat} {c : Char} (stops : Scanf.isDigit base c = false ∧ c ≠ 'x' ∧ c ≠ 'X')
    (rest : List Char) : Scanf.EndsNumber base (c :: rest) := by
  intro head here
  rw [List.head?_cons, Option.mem_some_iff] at here
  exact here ▸ stops

theorem endsWord_cons (rest : List Char) : ∀ c ∈ (' ' :: rest).head?, Scanf.isSpace c = true := by
  intro head here
  rw [List.head?_cons, Option.mem_some_iff] at here
  exact here ▸ rfl

theorem text_chars (perms : MapsPerms) : perms.text ⊆ "-rwxsp".toList := by
  obtain ⟨readable, writable, executable, shared⟩ := perms
  cases readable <;> cases writable <;> cases executable <;> cases shared <;> simp [MapsPerms.text]

theorem text_black (perms : MapsPerms) : ∀ c ∈ perms.text, Scanf.isSpace c = false := by
  intro c member
  have black : ("-rwxsp".toList.all fun c => !Scanf.isSpace c) = true := by decide
  simpa using all_eq_true.1 black c (text_chars perms member)

theorem dev_black : ∀ c ∈ region.dev, Scanf.isSpace c = false :=
  Scanf.numerals_black (by decide) (by decide) rfl 2 2 _ _

theorem path_of_unpadded (unpadded : region.padding = 0) : region.path = [] := by
  by_contra named
  exact absurd (region.apart named) (by omega)

theorem tail_begins (region : MapsRegion) : ∀ c ∈ region.tail.head?, c = ' ' := by
  intro c here
  cases padded : region.padding with
  | zero =>
      rw [tail, padded, path_of_unpadded padded] at here
      cases here
  | succ padding =>
      rw [tail, padded, replicate_succ, cons_append, List.head?_cons, Option.mem_some_iff] at here
      exact here.symm

theorem scanRange_header : scanRange region.header = some (region.start, region.stop, region.fromPerms) := by
  have first : Scanf.unsigned 16 region.header =
      some (region.start, '-' :: (Scanf.numeral 16 region.width region.stop.toNat ++ region.fromPerms)) := by
    apply Scanf.unsigned_numeral (by decide) (by decide)
    exact endsNumber_cons (by decide) _
  have second : Scanf.unsigned 16 (Scanf.numeral 16 region.width region.stop.toNat ++ region.fromPerms) =
      some (region.stop, region.fromPerms) := by
    apply Scanf.unsigned_numeral (by decide) (by decide)
    exact endsNumber_cons (by decide) _
  rw [scanRange, first]
  simp [Scanf.literal, second]

theorem word_fromPerms : Scanf.word region.fromPerms = some region.fromOffset := by
  rw [fromPerms, Scanf.word_cons rfl]
  apply Scanf.word_append (text_black region.perms) (by simp [MapsPerms.text])
  exact endsWord_cons _

theorem wordUpTo_fromPerms :
    Scanf.wordUpTo 7 region.fromPerms = some (region.perms.text, region.fromOffset) := by
  rw [fromPerms, Scanf.wordUpTo_cons rfl]
  apply Scanf.wordUpTo_append (text_black region.perms) (by simp [MapsPerms.text])
  · exact endsWord_cons _
  · simp [MapsPerms.text]

theorem unsigned_fromOffset :
    Scanf.unsigned 16 region.fromOffset = some (region.offset, region.fromDev) := by
  rw [fromOffset, Scanf.unsigned_cons rfl]
  apply Scanf.unsigned_numeral (by decide) (by decide)
  exact endsNumber_cons (by decide) _

theorem word_fromOffset : Scanf.word region.fromOffset = some region.fromDev := by
  rw [fromOffset, Scanf.word_cons rfl]
  exact Scanf.word_numeral (endsWord_cons _) (by decide) (by decide) region.offset.toNat

theorem word_fromDev : Scanf.word region.fromDev = some region.fromInode := by
  rw [fromDev, Scanf.word_cons rfl]
  apply Scanf.word_append dev_black (by simp [dev])
  exact endsWord_cons _

theorem unsigned_fromInode : Scanf.unsigned 10 region.fromInode = some (region.inode, region.tail) := by
  rw [fromInode, Scanf.unsigned_cons rfl]
  apply Scanf.unsigned_numeral (by decide) (by decide)
  intro c here
  rw [tail_begins region c here]
  decide

theorem word_fromInode : Scanf.word region.fromInode = some region.tail := by
  have ends : ∀ c ∈ region.tail.head?, Scanf.isSpace c = true := by
    intro c here
    rw [tail_begins region c here]
    rfl
  rw [fromInode, Scanf.word_cons rfl]
  exact Scanf.word_numeral ends (by decide) (by decide) region.inode.toNat

theorem skipSpace_tail (visible : ∀ c ∈ region.path.head?, Scanf.isSpace c = false) :
    Scanf.skipSpace region.tail = region.path := by
  rw [tail, Scanf.skipSpace, dropWhile_append_of_pos fun c member => by rw [eq_of_mem_replicate member]; rfl]
  exact Scanf.skipSpace_of_black visible

/-! ### The fields before the path -/

/-- The fields before the inode. -/
def words (region : MapsRegion) : List (List Char) :=
  [Scanf.numeral 16 region.width region.start.toNat ++ '-' ::
    Scanf.numeral 16 region.width region.stop.toNat,
    region.perms.text, Scanf.numeral 16 region.width region.offset.toNat, region.dev]

theorem header_words : region.header =
    region.words.flatMap (· ++ [' ']) ++ (Scanf.numeral 10 0 region.inode.toNat ++ region.tail) := by
  simp [words, header, fromPerms, fromOffset, fromDev, fromInode]

theorem words_black : ∀ word ∈ region.words, word ≠ [] ∧ ∀ c ∈ word, Scanf.isSpace c = false := by
  simp only [words, forall_mem_cons]
  refine ⟨⟨by simp, ?_⟩, ⟨by simp [MapsPerms.text], text_black _⟩,
    ⟨(Scanf.numeral_spec (by decide) (by decide) _
    _).2.2, Scanf.numeral_black (by decide) (by decide) _ _⟩, ⟨by simp [dev], dev_black⟩, forall_mem_nil _⟩
  exact Scanf.numerals_black (by decide) (by decide) rfl _ _ _ _

/-- Where the first of some words begins, there is no blank. -/
theorem head_words {words : List (List Char)} {rest : List Char}
    (black : ∀ word ∈ words, word ≠ [] ∧ ∀ c ∈ word, Scanf.isSpace c = false)
    (begins : ∀ c ∈ rest.head?, Scanf.isSpace c = false) :
    ∀ c ∈ (words.flatMap (· ++ [' ']) ++ rest).head?, Scanf.isSpace c = false := by
  cases words with
  | nil => exact begins
  | cons word words =>
      obtain ⟨nonempty, visible⟩ := black word mem_cons_self
      obtain ⟨c, others, rfl⟩ := exists_cons_of_ne_nil nonempty
      simpa using visible c mem_cons_self

theorem head_inode :
    ∀ c ∈ (Scanf.numeral 10 0 region.inode.toNat ++ region.tail).head?, Scanf.isSpace c = false := by
  obtain ⟨c, others, split⟩ := exists_cons_of_ne_nil
    (Scanf.numeral_spec (by decide : 2 ≤ 10) (by decide) 0 region.inode.toNat).2.2
  have visible := Scanf.numeral_black (by decide : 2 ≤ 10) (by decide) 0 region.inode.toNat c
    (by rw [split]; exact mem_cons_self)
  simpa [split] using visible

/-! ### What stands before the path -/

/-- The line without the path. -/
def front (region : MapsRegion) : List Char :=
  header { region with path := [], apart := fun named => absurd rfl named }

theorem header_eq : region.header = region.front ++ region.path := by
  simp [front, header, fromPerms, fromOffset, fromDev, fromInode, tail, dev]

theorem mem_front {c : Char} (member : c ∈ region.front) :
    Scanf.isDigit 16 c = true ∨ c ∈ " -:rwxsp".toList := by
  have hexadecimal : ∀ {width n}, c ∈ Scanf.numeral 16 width n → Scanf.isDigit 16 c = true := by
    intro width n within
    exact (Scanf.numeral_spec (by decide) (by decide) width n).2.1 c within
  have decimal : ∀ {width n}, c ∈ Scanf.numeral 10 width n → Scanf.isDigit 16 c = true := by
    intro width n within
    have digit := (Scanf.numeral_spec (by decide) (by decide) width n).2.1 c within
    rw [Scanf.isDigit, Option.any_eq_true] at digit ⊢
    obtain ⟨value, here, below⟩ := digit
    exact ⟨value, here, decide_eq_true (Nat.lt_trans (of_decide_eq_true below) (by decide))⟩
  have permission : c ∈ region.perms.text → c ∈ " -:rwxsp".toList := by
    intro within
    have more : "-rwxsp".toList ⊆ " -:rwxsp".toList := by simp
    exact more (text_chars region.perms within)
  simp only [front, header, fromPerms, fromOffset, fromDev, fromInode, tail, dev, append_nil,
    append_assoc, cons_append, mem_append, mem_cons] at member
  rcases member with digit | rfl | digit | rfl | text | rfl | digit | rfl | digit | rfl | digit | rfl |
    digit | padding
  any_goals exact .inl (hexadecimal digit)
  any_goals (right; decide)
  · exact .inr (permission text)
  · exact .inl (decimal digit)
  · obtain rfl := eq_of_mem_replicate padding
    exact .inr (by decide)

theorem not_mem_front {c : Char} (notDigit : Scanf.isDigit 16 c = false) (notMark : c ∉ " -:rwxsp".toList) :
    c ∉ region.front := by
  intro member
  rcases mem_front member with digit | mark
  · rw [notDigit] at digit
    cases digit
  · exact notMark mark

/-- A name with a slash at its front is found in the line where it is found in the path. -/
theorem strstr_header (needle : CString) :
    strstr ('/' :: needle) region.header = strstr ('/' :: needle) region.path := by
  rw [header_eq]
  apply strstr_append
  exact not_mem_front (by decide) (by decide)

end MapsRegion

end MallocHook
