/-
Module: MallocHook.Lib.Scanf
Purpose: The conversions of `sscanf` on a list of characters. A numeral written in a base is read back
  where no character follows that goes on with it.
Trusted boundary: the behaviour of the C library on these conversions
Main exports: Scanf.number, Scanf.long, Scanf.int, Scanf.word
-/
import Mathlib.Algebra.GroupWithZero.Nat
import Mathlib.Data.List.TakeWhile
import Mathlib.Tactic.Common

namespace Scanf

open List Option

/-! ### Conversions -/

/-- `isspace` of the C locale. -/
def isSpace (c : Char) : Bool := c == ' ' || (9 ≤ c.toNat && c.toNat ≤ 13)

def skipSpace (text : List Char) : List Char := text.dropWhile isSpace

/-- The value of a digit, hexadecimal letters of either case included. -/
def digitValue (c : Char) : Option Nat :=
  if 48 ≤ c.toNat ∧ c.toNat ≤ 57 then some (c.toNat - 48)
  else if 97 ≤ c.toNat ∧ c.toNat ≤ 102 then some (c.toNat - 87)
  else if 65 ≤ c.toNat ∧ c.toNat ≤ 70 then some (c.toNat - 55)
  else none

def isDigit (base : Nat) (c : Char) : Bool := (digitValue c).any (· < base)

/-- The value of a sequence of digits. -/
def valueOf (base : Nat) (digits : List Char) : Nat :=
  digits.foldl (fun value c => value * base + (digitValue c).getD 0) 0

/-- An optional sign: whether it is a minus, and what follows. -/
def sign : List Char → Bool × List Char
  | '-' :: rest => (true, rest)
  | '+' :: rest => (false, rest)
  | text => (false, text)

/-- A hexadecimal number may begin with 0x. -/
def stripHexMark : List Char → List Char
  | '0' :: 'x' :: rest => rest
  | '0' :: 'X' :: rest => rest
  | text => text

/-- A number: whether it is negative, its magnitude, and what follows. -/
def number (base : Nat) (text : List Char) : Option (Bool × Nat × List Char) :=
  let signed := sign (skipSpace text)
  let digits := if base = 16 then stripHexMark signed.2 else signed.2
  if digits.takeWhile (isDigit base) = [] then none
  else
    some (signed.1, valueOf base (digits.takeWhile (isDigit base)), digits.dropWhile (isDigit base))

/-- `%lx` and `%llu`: a negative number is taken modulo 2^64. -/
def unsigned (base : Nat) (text : List Char) : Option (UInt64 × List Char) :=
  (number base text).map fun read =>
    (if read.2.1 ≥ 2 ^ 64 then UInt64.ofNat (2 ^ 64 - 1)
      else if read.1 then 0 - UInt64.ofNat read.2.1 else UInt64.ofNat read.2.1, read.2.2)

/-- `%ld`: the magnitude goes up to 2^63 below zero and to one less above it. -/
def long (text : List Char) : Option (Int × List Char) :=
  (number 10 text).map fun read =>
    (if read.1 then -Int.ofNat (min read.2.1 (2 ^ 63)) else Int.ofNat (min read.2.1 (2 ^ 63 - 1)), read.2.2)

/-- `%d`: the value of `%ld`, as an `int`. -/
def int (text : List Char) : Option (Int32 × List Char) :=
  (long text).map fun read => (Int32.ofInt read.1, read.2)

/-- `%s` with a width. -/
def wordUpTo (width : Nat) (text : List Char) : Option (List Char × List Char) :=
  let word := ((skipSpace text).takeWhile fun c => !isSpace c).take width
  if word = [] then none else some (word, (skipSpace text).drop word.length)

/-- `%*s`: what follows the next word. -/
def word (text : List Char) : Option (List Char) :=
  let rest := skipSpace text
  if rest = [] then none else some (rest.dropWhile fun c => !isSpace c)

/-- A character of the format that is neither a conversion nor white space. -/
def literal (c : Char) : List Char → Option (List Char)
  | [] => none
  | a :: rest => if a = c then some rest else none

/-! ### Numerals are read back -/

/-- A number in a base, with zeros in front of it to a given width. -/
def numeral (base width n : Nat) : List Char :=
  List.replicate (width - (Nat.toDigits base n).length) '0' ++ Nat.toDigits base n

theorem digitValue_digitChar : ∀ d < 16, digitValue (Nat.digitChar d) = some d := by decide

theorem valueOf_append_singleton (base : Nat) (digits : List Char) (c : Char) :
    valueOf base (digits ++ [c]) = valueOf base digits * base + (digitValue c).getD 0 := by
  rw [valueOf, foldl_append]
  rfl

section

variable {base : Nat} (two : 2 ≤ base) (sixteen : base ≤ 16)
include two sixteen

theorem isDigit_digitChar {d : Nat} (below : d < base) : isDigit base (Nat.digitChar d) = true := by
  rw [isDigit, digitValue_digitChar d (by omega)]
  simpa using below

theorem toDigits_spec (n : Nat) :
    valueOf base (Nat.toDigits base n) = n ∧ ∀ c ∈ Nat.toDigits base n, isDigit base c = true := by
  induction n using Nat.strongRecOn with
  | _ n ih =>
      by_cases small : n < base
      · rw [Nat.toDigits_of_lt_base small]
        refine ⟨?_, forall_mem_singleton.2 (isDigit_digitChar two sixteen small)⟩
        simp [valueOf, digitValue_digitChar n (by omega)]
      · have large : base ≤ n := Nat.le_of_not_lt small
        have last : n % base < base := Nat.mod_lt _ (by omega)
        obtain ⟨value, digits⟩ := ih (n / base) (Nat.div_lt_self (by omega) two)
        rw [Nat.toDigits_of_base_le two large]
        constructor
        · rw [valueOf_append_singleton, value, digitValue_digitChar _ (by omega), getD_some, Nat.mul_comm]
          exact Nat.div_add_mod n base
        · intro c member
          rcases mem_append.1 member with early | late
          · exact digits c early
          · rw [mem_singleton.1 late]
            exact isDigit_digitChar two sixteen last

theorem toDigits_injective : Function.Injective (Nat.toDigits base) := by
  intro n m same
  rw [← (toDigits_spec two sixteen n).1, same, (toDigits_spec two sixteen m).1]

theorem numeral_spec (width n : Nat) :
    valueOf base (numeral base width n) = n ∧ (∀ c ∈ numeral base width n, isDigit base c = true) ∧
      numeral base width n ≠ [] := by
  obtain ⟨value, digits⟩ := toDigits_spec two sixteen n
  refine ⟨?_, ?_, by simp [numeral]⟩
  · have zeros : ∀ k, valueOf base (List.replicate k '0') = 0 := by
      intro k
      induction k with
      | zero => rfl
      | succ k ih => rw [replicate_succ', valueOf_append_singleton, ih, Nat.zero_mul]; rfl
    rw [numeral, valueOf, foldl_append]
    exact (congrArg (fun start => List.foldl _ start _) (zeros _)).trans value
  · intro c member
    rcases mem_append.1 member with zero | digit
    · rw [eq_of_mem_replicate zero]
      exact isDigit_digitChar two sixteen (by omega : 0 < base)
    · exact digits c digit

end

variable {c : Char}

theorem notMem_toDigits (n : Nat) (notDigit : c.isDigit = false) : c ∉ Nat.toDigits 10 n := by
  intro member
  rw [Nat.isDigit_of_mem_toDigits (by decide) (by decide) member] at notDigit
  cases notDigit

/-- Whatever is a digit is no white space, no sign and no mark. -/
theorem isDigit_spec {base : Nat} (digit : isDigit base c = true) :
    isSpace c = false ∧ c ≠ '-' ∧ c ≠ '+' ∧ c ≠ 'x' ∧ c ≠ 'X' := by
  refine ⟨?_, ?_, ?_, ?_, ?_⟩
  · have large : 48 ≤ c.toNat := by
      by_contra small
      have none_ : digitValue c = none := by
        unfold digitValue
        rw [if_neg (by omega), if_neg (by omega), if_neg (by omega)]
      rw [isDigit, none_] at digit
      cases digit
    simp only [isSpace, Bool.or_eq_false_iff, beq_eq_false_iff_ne, Bool.and_eq_false_iff,
      decide_eq_false_iff_not]
    refine ⟨?_, .inr (by omega)⟩
    rintro rfl
    exact absurd large (by decide)
  all_goals
    rintro rfl
    cases digit

section

variable {base : Nat} (two : 2 ≤ base) (sixteen : base ≤ 16)
include two sixteen

theorem numeral_black (width n : Nat) : ∀ c ∈ numeral base width n, isSpace c = false :=
  fun c member => (isDigit_spec ((numeral_spec two sixteen width n).2.1 c member)).1

/-- Two numerals with a mark between them. -/
theorem numerals_black {mark : Char} (visible : isSpace mark = false) (width width' n n' : Nat) :
    ∀ c ∈ numeral base width n ++ mark :: numeral base width' n', isSpace c = false := by
  intro c member
  rw [mem_append, mem_cons] at member
  rcases member with first | rfl | second
  · exact numeral_black two sixteen width n c first
  · exact visible
  · exact numeral_black two sixteen width' n' c second

end

theorem isDigit_ten (digit : isDigit 10 c = true) :
    c.isDigit = true ∧ digitValue c = some (c.toNat - 48) := by
  have bounds : 48 ≤ c.toNat ∧ c.toNat ≤ 57 := by
    by_contra outside
    rw [isDigit, digitValue, if_neg outside] at digit
    split at digit
    · simp only [any_some, decide_eq_true_eq] at digit
      omega
    · split at digit
      · simp only [any_some, decide_eq_true_eq] at digit
        omega
      · cases digit
  constructor
  · have low : '0'.val ≤ c.val := UInt32.le_iff_toNat_le.2 bounds.1
    have high : c.val ≤ '9'.val := UInt32.le_iff_toNat_le.2 bounds.2
    simp only [Char.isDigit, Bool.and_eq_true, decide_eq_true_eq]
    exact ⟨low, high⟩
  · exact if_pos bounds

theorem skipSpace_cons (white : isSpace c = true) (text : List Char) :
    skipSpace (c :: text) = skipSpace text :=
  dropWhile_cons_of_pos white

theorem skipSpace_of_black {text : List Char} (black : ∀ c ∈ text.head?, isSpace c = false) :
    skipSpace text = text := by
  cases text with
  | nil => rfl
  | cons c text => exact dropWhile_cons_of_neg (by simpa using black c rfl)

section

variable (white : isSpace c = true) (text : List Char)
include white

theorem unsigned_cons {base : Nat} : unsigned base (c :: text) = unsigned base text := by
  simp only [unsigned, number, skipSpace_cons white]

theorem long_cons : long (c :: text) = long text := by
  simp only [long, number, skipSpace_cons white]

theorem wordUpTo_cons {width : Nat} : wordUpTo width (c :: text) = wordUpTo width text := by
  simp only [wordUpTo, skipSpace_cons white]

theorem word_cons : word (c :: text) = word text := by
  simp only [word, skipSpace_cons white]

end

theorem sign_of_ne {text : List Char} (plain : ∀ c ∈ text.head?, c ≠ '-' ∧ c ≠ '+') :
    sign text = (false, text) := by
  unfold sign
  split
  · exact absurd rfl (plain '-' rfl).1
  · exact absurd rfl (plain '+' rfl).2
  · rfl

theorem stripHexMark_of_ne {a : Char} {text : List Char} (plain : ∀ c ∈ text.head?, c ≠ 'x' ∧ c ≠ 'X') :
    stripHexMark (a :: text) = a :: text := by
  unfold stripHexMark
  split
  · next same =>
      obtain ⟨-, rfl⟩ := List.cons.inj same
      exact absurd rfl (plain 'x' rfl).1
  · next same =>
      obtain ⟨-, rfl⟩ := List.cons.inj same
      exact absurd rfl (plain 'X' rfl).2
  · rfl

/-- What may follow a number: nothing, or a character that cannot go on with it. -/
def EndsNumber (base : Nat) (rest : List Char) : Prop :=
  ∀ c ∈ rest.head?, isDigit base c = false ∧ c ≠ 'x' ∧ c ≠ 'X'

/-- Digits are read up to what ends them. -/
theorem number_append {base : Nat} {digits rest : List Char}
    (areDigits : ∀ c ∈ digits, isDigit base c = true) (some_ : digits ≠ []) (ends : EndsNumber base rest) :
    number base (digits ++ rest) = some (false, valueOf base digits, rest) := by
  obtain ⟨first, others, rfl⟩ := exists_cons_of_ne_nil some_
  obtain ⟨isFirst, areOthers⟩ := forall_mem_cons.1 areDigits
  obtain ⟨black, notMinus, notPlus, -⟩ := isDigit_spec isFirst
  have skipped : skipSpace (first :: others ++ rest) = first :: (others ++ rest) :=
    skipSpace_of_black (by simpa using black)
  have unsigned : sign (first :: (others ++ rest)) = (false, first :: (others ++ rest)) :=
    sign_of_ne (by simpa using ⟨notMinus, notPlus⟩)
  have unmarked : stripHexMark (first :: (others ++ rest)) = first :: (others ++ rest) := by
    apply stripHexMark_of_ne
    cases others with
    | nil => exact fun c head => (ends c head).2
    | cons second others =>
        obtain ⟨-, -, -, notX⟩ := isDigit_spec (forall_mem_cons.1 areOthers).1
        simpa using notX
  have taken : (first :: (others ++ rest)).takeWhile (isDigit base) = first :: others := by
    rw [takeWhile_cons_of_pos isFirst, takeWhile_append_of_pos areOthers]
    cases rest with
    | nil => simp
    | cons c rest => rw [takeWhile_cons_of_neg (by simpa using (ends c rfl).1), append_nil]
  have left : (first :: (others ++ rest)).dropWhile (isDigit base) = rest := by
    rw [dropWhile_cons_of_pos isFirst, dropWhile_append_of_pos areOthers]
    cases rest with
    | nil => rfl
    | cons c rest => rw [dropWhile_cons_of_neg (by simpa using (ends c rfl).1)]
  simp only [number, skipped, unsigned, unmarked, ite_self, taken, left]
  rw [if_neg (cons_ne_nil _ _)]

theorem unsigned_numeral {base width : Nat} (two : 2 ≤ base) (sixteen : base ≤ 16) (n : UInt64)
    {rest : List Char} (ends : EndsNumber base rest) :
    unsigned base (numeral base width n.toNat ++ rest) = some (n, rest) := by
  obtain ⟨value, digits, some_⟩ := numeral_spec two sixteen width n.toNat
  rw [unsigned, number_append digits some_ ends, map_some, value]
  dsimp only
  rw [if_neg (Nat.not_le.2 n.toNat_lt), if_neg Bool.false_ne_true, UInt64.ofNat_toNat]

theorem long_numeral {width n : Nat} (small : n < 2 ^ 63) {rest : List Char} (ends : EndsNumber 10 rest) :
    long (numeral 10 width n ++ rest) = some (Int.ofNat n, rest) := by
  obtain ⟨value, digits, some_⟩ := numeral_spec (by decide : 2 ≤ 10) (by decide) width n
  rw [long, number_append digits some_ ends, map_some, value]
  dsimp only
  rw [if_neg Bool.false_ne_true, Nat.min_eq_left (by omega)]

section

variable {text rest : List Char} (black : ∀ c ∈ text, isSpace c = false) (some_ : text ≠ [])
  (ends : ∀ c ∈ rest.head?, isSpace c = true)
include black

include some_ in
theorem skipSpace_append : skipSpace (text ++ rest) = text ++ rest := by
  apply skipSpace_of_black
  cases text with
  | nil => exact absurd rfl some_
  | cons c text => simpa using black c mem_cons_self

include some_ ends in
theorem word_append : word (text ++ rest) = some rest := by
  have left : (text ++ rest).dropWhile (fun c => !isSpace c) = rest := by
    rw [dropWhile_append_of_pos (by simpa using black)]
    cases rest with
    | nil => rfl
    | cons c rest => rw [dropWhile_cons_of_neg (by simpa using ends c rfl)]
  rw [word, skipSpace_append black some_, left, if_neg (by simp [some_])]

omit black in
include ends in
theorem word_numeral {base width : Nat} (two : 2 ≤ base) (sixteen : base ≤ 16) (n : Nat) :
    word (numeral base width n ++ rest) = some rest :=
  word_append (numeral_black two sixteen width n) (numeral_spec two sixteen width n).2.2 ends

include some_ ends in
theorem wordUpTo_append {width : Nat} (fits : text.length ≤ width) :
    wordUpTo width (text ++ rest) = some (text, rest) := by
  have taken : (text ++ rest).takeWhile (fun c => !isSpace c) = text := by
    rw [takeWhile_append_of_pos (by simpa using black)]
    cases rest with
    | nil => simp
    | cons c rest => rw [takeWhile_cons_of_neg (by simpa using ends c rfl), append_nil]
  simp only [wordUpTo, skipSpace_append black some_, taken, take_of_length_le fits, if_neg some_, drop_left]

end

end Scanf
