/-
Module: MallocHook.Proofs.SmapsText
Purpose: The text of smaps as a list of regions, each a header and its fields, and what the scan for
  mappings does with each of its lines.
Trusted boundary: the kernel's format of smaps
Main exports: SmapsRegion, smapsText, MappingScan.line_header
-/
import MallocHook.Core.MappingRss

namespace MallocHook

open List

/-! ### The text of smaps -/

/-- The header of a region: its path is on one line, and does not begin with a blank. -/
structure SmapsHeader extends MapsRegion where
  oneLine : '\n' ∉ path
  begins : path.head? ≠ some ' '

variable (header : SmapsHeader)

/-- The mapping a region belongs to. -/
def SmapsHeader.name : String :=
  if header.path = [] then kAnonymous else String.ofList header.path

/-- A field other than the two that are summed. -/
structure OtherField where
  key : List Char
  value : List Char
  letter : key.head?.any Char.isAlpha = true
  plain : ':' ∉ key
  oneLine : '\n' ∉ key ∧ '\n' ∉ value
  another : key ≠ "Rss".toList ∧ key ≠ "Size".toList

/-- A field of a region, with the number of blanks before its value. -/
inductive SmapsField where
  | rss (blanks : Nat) (kb : UInt64)
  | size (blanks : Nat) (kb : UInt64)
  | other (field : OtherField)

namespace SmapsField

/-- A line with a size in it. -/
def sizeLine (key : String) (blanks : Nat) (kb : UInt64) : List Char :=
  key.toList ++ (List.replicate blanks ' ' ++ (Scanf.numeral 10 0 kb.toNat ++ " kB".toList))

def line : SmapsField → List Char
  | rss blanks kb => sizeLine "Rss:" blanks kb
  | size blanks kb => sizeLine "Size:" blanks kb
  | other field => field.key ++ ':' :: field.value

def rssKb : SmapsField → Option UInt64
  | rss _ kb => some kb
  | _ => none

def sizeKb : SmapsField → Option UInt64
  | size _ kb => some kb
  | _ => none

/-- What a field adds to a sum of residencies and sizes. -/
def amount : SmapsField → Option (UInt64 × UInt64)
  | rss _ kb => some (kb, 0)
  | size _ kb => some (0, kb)
  | other _ => none

end SmapsField

/-- A region: a header and fields, among them one residency and one size. -/
structure SmapsRegion where
  header : SmapsHeader
  fields : List SmapsField
  oneRss : (fields.filterMap SmapsField.rssKb).length = 1
  oneSize : (fields.filterMap SmapsField.sizeKb).length = 1

namespace SmapsRegion

variable (region : SmapsRegion)

def rssKb : UInt64 := (region.fields.filterMap SmapsField.rssKb).headD 0

def sizeKb : UInt64 := (region.fields.filterMap SmapsField.sizeKb).headD 0

def name : String := region.header.name

/-- Whether the path of the region is that of a file. -/
def inFile : Bool := region.header.path.head? == some '/'

def lines : List (List Char) := region.header.header :: region.fields.map SmapsField.line

def amounts : List (UInt64 × UInt64) := region.fields.filterMap SmapsField.amount

end SmapsRegion

def smapsText (regions : List SmapsRegion) : List Char :=
  ((regions.flatMap SmapsRegion.lines).map (· ++ ['\n'])).flatten

/-! ### Fields are read back -/

theorem decimalValue_eq {digits : List Char} (decimal : ∀ c ∈ digits, Scanf.isDigit 10 c = true) :
    decimalValue digits = UInt64.ofNat (Scanf.valueOf 10 digits) := by
  induction digits using List.reverseRecOn with
  | nil => rfl
  | append_singleton digits c ih =>
      have value := (Scanf.isDigit_ten (decimal c (by simp))).2
      rw [Scanf.valueOf_append_singleton, value, Option.getD_some, UInt64.ofNat_add, UInt64.ofNat_mul,
        ← ih fun c member => decimal c (mem_append_left _ member), decimalValue, foldl_append]
      rfl

variable {key : String} {c : Char}

theorem readStatusField_sizeLine {rest : List Char} (nonempty : key.toList = c :: rest)
    (blanks : Nat) (kb : UInt64) : readStatusField (SmapsField.sizeLine key blanks kb) key.toList = kb := by
  obtain ⟨value, decimal, digits⟩ := Scanf.numeral_spec (by decide : 2 ≤ 10) (by decide) 0 kb.toNat
  have found : strstr key.toList (SmapsField.sizeLine key blanks kb) =
      some (key.toList ++ (List.replicate blanks ' ' ++ (Scanf.numeral 10 0 kb.toNat ++ " kB".toList))) := by
    rw [SmapsField.sizeLine, nonempty]
    exact strstr_self _
  have isDecimal : ∀ c ∈ Scanf.numeral 10 0 kb.toNat, c.isDigit = true :=
    fun c member => (Scanf.isDigit_ten (decimal c member)).1
  have skipped : (List.replicate blanks ' ' ++ (Scanf.numeral 10 0 kb.toNat ++ " kB".toList)).dropWhile
    isFieldBlank = Scanf.numeral 10 0 kb.toNat ++ " kB".toList := by
    rw [dropWhile_append_of_pos fun c member => by rw [eq_of_mem_replicate member]; rfl]
    obtain ⟨first, others, split⟩ := exists_cons_of_ne_nil digits
    have black := Scanf.numeral_black (by decide : 2 ≤ 10) (by decide) 0 kb.toNat first
      (by rw [split]; exact mem_cons_self)
    rw [split, cons_append, dropWhile_cons_of_neg]
    intro blank
    rw [isFieldBlank, Bool.or_eq_true, beq_iff_eq, beq_iff_eq] at blank
    rcases blank with rfl | rfl <;> cases black
  have taken : (Scanf.numeral 10 0 kb.toNat ++ " kB".toList).takeWhile Char.isDigit =
      Scanf.numeral 10 0 kb.toNat := by
    have unit : " kB".toList.takeWhile Char.isDigit = [] := by decide
    rw [takeWhile_append_of_pos isDecimal, unit, append_nil]
  rw [readStatusField, found]
  dsimp only
  rw [drop_left, skipped, taken, decimalValue_eq decimal, value, UInt64.ofNat_toNat]

theorem SmapsField.mem_sizeLine {blanks : Nat} {kb : UInt64} (member : c ∈ sizeLine key blanks kb) :
    c ∈ key.toList ∨ Scanf.isDigit 10 c = true ∨ c ∈ " kB".toList := by
  simp only [sizeLine, mem_append] at member
  rcases member with inKey | blank | digit | unit
  · exact .inl inKey
  · rw [eq_of_mem_replicate blank]
    exact .inr (.inr (by decide))
  · exact .inr (.inl ((Scanf.numeral_spec (by decide) (by decide) 0 kb.toNat).2.1 c digit))
  · exact .inr (.inr unit)

/-- A character that is none of those does not occur. -/
theorem SmapsField.not_mem_sizeLine {blanks : Nat} {kb : UInt64} (notKey : c ∉ key.toList)
    (notDigit : Scanf.isDigit 10 c = false) (notUnit : c ∉ " kB".toList) : c ∉ sizeLine key blanks kb := by
  intro member
  rcases mem_sizeLine member with inKey | digit | unit
  · exact notKey inKey
  · rw [notDigit] at digit
    cases digit
  · exact notUnit unit

theorem le_of_isAlpha (letter : c.isAlpha = true) : 65 ≤ c.toNat := by
  rcases Bool.or_eq_true_iff.1 letter with upper | lower
  · exact UInt32.le_iff_toNat_le.1 (of_decide_eq_true upper).1
  · exact Nat.le_trans (by decide) (UInt32.le_iff_toNat_le.1
      (of_decide_eq_true (Bool.and_eq_true_iff.1 lower).1))

theorem OtherField.not_header (field : OtherField) :
    looksLikeHeader (field.key ++ ':' :: field.value) = false := by
  have letter := field.letter
  cases written : field.key with
  | nil =>
      rw [written] at letter
      cases letter
  | cons c rest =>
      rw [written, List.head?_cons, Option.any_some] at letter
      have notDigit : c.isDigit = false := by
        rw [← Bool.not_eq_true]
        intro digit
        have atMost : c.toNat ≤ 57 := UInt32.le_iff_toNat_le.1
          (of_decide_eq_true (Bool.and_eq_true_iff.1 digit).2)
        have := le_of_isAlpha letter
        omega
      rw [looksLikeHeader, cons_append, List.head?_cons, Option.any_some, notDigit, Bool.false_and]

theorem OtherField.not_prefix {field : OtherField} {key : List Char} (plain : ':' ∉ key)
    (differs : field.key ≠ key) : (key ++ [':']).isPrefixOf (field.key ++ ':' :: field.value) = false := by
  rw [← Bool.not_eq_true, isPrefixOf_iff_prefix]
  rintro ⟨rest, same⟩
  apply differs
  have before : ∀ {text : List Char} (rest : List Char), ':' ∉ text →
      (text ++ ':' :: rest).takeWhile (· != ':') = text := by
    intro text rest clear
    rw [takeWhile_append_of_pos fun c member => by simpa using ne_of_mem_of_not_mem member clear]
    simp
  rw [append_assoc, singleton_append] at same
  rw [← before field.value field.plain, ← same, before rest plain]

/-- What a field line does: it charges its amount. -/
theorem MappingScan.line_field (s : MappingScan) (field : SmapsField) :
    s.line field.line = field.amount.toList.foldl MappingScan.charge s := by
  cases field with
  | rss blanks kb =>
      have plain : '\x00' ∉ SmapsField.sizeLine "Rss:" blanks kb :=
        SmapsField.not_mem_sizeLine (by decide) (by decide) (by decide)
      have begins : "Rss:".toList.isPrefixOf (SmapsField.sizeLine "Rss:" blanks kb) = true :=
        isPrefixOf_iff_prefix.2 (prefix_append ..)
      rw [SmapsField.line, MappingScan.line, if_pos begins, cString_of_not_mem plain,
        readStatusField_sizeLine (rfl : "Rss:".toList = 'R' :: _)]
      rfl
  | size blanks kb =>
      have plain : '\x00' ∉ SmapsField.sizeLine "Size:" blanks kb :=
        SmapsField.not_mem_sizeLine (by decide) (by decide) (by decide)
      have begins : "Size:".toList.isPrefixOf (SmapsField.sizeLine "Size:" blanks kb) = true :=
        isPrefixOf_iff_prefix.2 (prefix_append ..)
      have notRss : "Rss:".toList.isPrefixOf (SmapsField.sizeLine "Size:" blanks kb) = false := rfl
      rw [SmapsField.line, MappingScan.line, if_neg
        (by rw [notRss]; exact Bool.false_ne_true), if_pos begins,
        cString_of_not_mem plain, readStatusField_sizeLine (rfl : "Size:".toList = 'S' :: _)]
      rfl
  | other field =>
      have notRss : "Rss:".toList.isPrefixOf (field.key ++ ':' :: field.value) = false :=
        OtherField.not_prefix (by decide) field.another.1
      have notSize : "Size:".toList.isPrefixOf (field.key ++ ':' :: field.value) = false :=
        OtherField.not_prefix (by decide) field.another.2
      rw [SmapsField.line, MappingScan.line, notRss, notSize, field.not_header]
      rfl

/-! ### Headers are read back -/

theorem skipBlankFields_append {text rest : List Char} (clear : ' ' ∉ text) (fields : Nat)
    (begins : rest.head? ≠ some ' ') (blanks : Nat) :
    skipBlankFields (fields + 1) (text ++ ' ' :: (List.replicate blanks ' ' ++ rest)) =
      skipBlankFields fields rest := by
  have reached : (text ++ ' ' :: (List.replicate blanks ' ' ++ rest)).dropWhile (· != ' ') =
      ' ' :: (List.replicate blanks ' ' ++ rest) := by
    rw [dropWhile_append_of_pos fun c member => by simpa using ne_of_mem_of_not_mem member clear]
    exact dropWhile_cons_of_neg (by decide)
  have skipped : (' ' :: (List.replicate blanks ' ' ++ rest)).dropWhile (· == ' ') = rest := by
    rw [dropWhile_cons_of_pos (by decide),
      dropWhile_append_of_pos fun c member => by rw [eq_of_mem_replicate member]; rfl]
    cases rest with
    | nil => rfl
    | cons c rest =>
        apply dropWhile_cons_of_neg
        rw [beq_iff_eq]
        rintro rfl
        exact begins rfl
  rw [skipBlankFields, if_pos (by simp), reached, skipped]

theorem skipBlankFields_words {words : List (List Char)} {rest : List Char}
    (black : ∀ word ∈ words, word ≠ [] ∧ ∀ c ∈ word, Scanf.isSpace c = false)
    (begins : ∀ c ∈ rest.head?, Scanf.isSpace c = false) (fields : Nat) :
    skipBlankFields (fields + words.length) (words.flatMap (· ++ [' ']) ++ rest) =
    skipBlankFields fields rest := by
  induction words with
  | nil => rfl
  | cons word words ih =>
      obtain ⟨here, there⟩ := forall_mem_cons.1 black
      have clear : ' ' ∉ word := fun member => by cases here.2 ' ' member
      have next : (words.flatMap (· ++ [' ']) ++ rest).head? ≠ some ' ' := fun blank => by
        cases MapsRegion.head_words there begins ' ' blank
      have skipped := skipBlankFields_append clear (fields + words.length) next 0
      rw [← ih there, ← skipped]
      simp [Nat.add_assoc]

/-- The sixth field of a header is its path. -/
theorem SmapsHeader.skipBlankFields_header : (skipBlankFields 5 header.header).getD [] = header.path := by
  rw [MapsRegion.header_words]
  refine (congrArg (·.getD []) (skipBlankFields_words MapsRegion.words_black
    MapsRegion.head_inode 1)).trans ?_
  have clear : ' ' ∉ Scanf.numeral 10 0 header.inode.toNat := fun member => by
    cases Scanf.numeral_black (by decide : 2 ≤ 10) (by decide) 0 header.inode.toNat ' ' member
  cases padded : header.padding with
  | zero =>
      rw [MapsRegion.tail, padded, MapsRegion.path_of_unpadded padded, replicate_zero,
        append_nil, append_nil,
        skipBlankFields, if_neg clear]
      rfl
  | succ blanks =>
      rw [MapsRegion.tail, padded, replicate_succ, cons_append,
        skipBlankFields_append clear 0 header.begins blanks]
      rfl

/-- Whether a header begins with a decimal digit. -/
def SmapsHeader.decimalFirst : Bool := header.header.head?.any Char.isDigit

/-- The mapping the scan is in after a header. -/
def nameAfter (current : String) (header : SmapsHeader) : String :=
  if header.decimalFirst then mappingName header.path else current

theorem MappingScan.line_header (s : MappingScan) (header : SmapsHeader) :
    s.line header.header = { s with current := nameAfter s.current header } := by
  obtain ⟨-, digits, some_⟩ := Scanf.numeral_spec (by decide : 2 ≤ 16) (by decide) header.width
    header.start.toNat
  obtain ⟨c, others, split⟩ := exists_cons_of_ne_nil some_
  have digit : Scanf.isDigit 16 c = true := digits c (by rw [split]; exact mem_cons_self)
  have whole : header.header = c :: (others ++
      '-' :: (Scanf.numeral 16 header.width header.stop.toNat ++ header.fromPerms)) := by
    rw [MapsRegion.header, split, cons_append]
  have notField : ∀ {first : Char} {key : List Char}, Scanf.isDigit 16 first = false →
      (first :: key).isPrefixOf header.header = false := by
    intro first key notDigit
    rw [← Bool.not_eq_true, isPrefixOf_iff_prefix, whole, cons_prefix_cons]
    rintro ⟨rfl, -⟩
    rw [digit] at notDigit
    cases notDigit
  have dash : decide ('-' ∈ header.header) = true := by
    rw [whole]
    simp
  have notRss : "Rss:".toList.isPrefixOf header.header = false := notField (by decide)
  have notSize : "Size:".toList.isPrefixOf header.header = false := notField (by decide)
  rw [MappingScan.line, notRss, notSize, looksLikeHeader, dash, Bool.and_true, nameAfter,
    SmapsHeader.skipBlankFields_header]
  change (if header.decimalFirst then _ else _) = _
  cases header.decimalFirst <;> rfl

/-! ### Lines end where they end -/

theorem SmapsRegion.newline_not_mem (region : SmapsRegion) : ∀ line ∈ region.lines, '\n' ∉ line := by
  intro line member
  rw [SmapsRegion.lines, mem_cons, mem_map] at member
  rcases member with rfl | ⟨field, -, rfl⟩
  · rw [MapsRegion.header_eq, mem_append, not_or]
    exact ⟨MapsRegion.not_mem_front (by decide) (by decide), region.header.oneLine⟩
  · cases field with
    | rss blanks kb => exact SmapsField.not_mem_sizeLine (by decide) (by decide) (by decide)
    | size blanks kb => exact SmapsField.not_mem_sizeLine (by decide) (by decide) (by decide)
    | other field =>
        rw [SmapsField.line, mem_append, mem_cons, not_or, not_or]
        exact ⟨field.oneLine.1, by decide, field.oneLine.2⟩

end MallocHook
