/-
Module: MallocHook.Lib.WireFormat
Purpose: The wire format of protocol buffers on lists of bytes. `Framed` says which lists of spans are
  read back; items may be dropped from them, or replaced by items that end by themselves.
Trusted boundary: none
Main exports: readVarint, readField, WireField.encode, readAll
-/
import Mathlib.Data.List.Forall2

namespace WireFormat

open List
open Option (bind_eq_some_iff bind_some map_eq_some_iff map_some)

abbrev Bytes := List UInt8

/-! ### Numbers -/

/-- Seven bits at a time, the lowest first; `fuel` bounds the number of groups. -/
def encodeVarintAux : Nat → Nat → Bytes
  | 0, value => [UInt8.ofNat value]
  | fuel + 1, value =>
      if value > 127 then UInt8.ofNat (value % 128 + 128) :: encodeVarintAux fuel (value / 128)
      else [UInt8.ofNat value]

def encodeVarint (value : Nat) : Bytes := encodeVarintAux value value

/-- A number and the bytes after it; `none` if the bytes end inside the number. -/
def readVarint : Bytes → Option (Nat × Bytes)
  | [] => none
  | byte :: rest =>
      if byte.toNat < 128 then some (byte.toNat, rest)
      else (readVarint rest).map fun (high, rest) => (byte.toNat - 128 + 128 * high, rest)

theorem readVarint_encodeVarintAux {fuel value : Nat} (enough : value ≤ fuel) (rest : Bytes) :
    readVarint (encodeVarintAux fuel value ++ rest) = some (value, rest) := by
  induction fuel generalizing value with
  | zero =>
      obtain rfl : value = 0 := Nat.le_zero.1 enough
      rfl
  | succ fuel ih =>
      rw [encodeVarintAux]
      split
      · next large =>
          have byte : (UInt8.ofNat (value % 128 + 128)).toNat = value % 128 + 128 := by
            rw [UInt8.toNat_ofNat']
            omega
          rw [cons_append, readVarint, byte, if_neg (by omega), ih (by omega)]
          simp only [map_some, Option.some.injEq, Prod.mk.injEq, and_true]
          omega
      · next small =>
          have byte : (UInt8.ofNat value).toNat = value := by
            rw [UInt8.toNat_ofNat']
            omega
          rw [singleton_append, readVarint, byte, if_pos (by omega)]

/-- A number is read back, whatever follows it. -/
theorem readVarint_encodeVarint (value : Nat) (rest : Bytes) :
    readVarint (encodeVarint value ++ rest) = some (value, rest) :=
  readVarint_encodeVarintAux (Nat.le_refl value) rest

theorem encodeVarint_ne_nil (value : Nat) : encodeVarint value ≠ [] := by
  intro empty
  have reads := readVarint_encodeVarint value []
  rw [empty] at reads
  cases reads

variable {bytes rest : Bytes}

/-- The bytes of a number end by themselves. -/
theorem readVarint_spec {value : Nat} (read : readVarint bytes = some (value, rest)) :
    ∃ used, used ≠ [] ∧ bytes = used ++ rest ∧ ∀ tail, readVarint (used ++ tail) = some (value, tail) := by
  induction bytes generalizing value with
  | nil => cases read
  | cons byte later ih =>
      rw [readVarint] at read
      split at read
      · next small =>
          cases read
          exact ⟨[byte], by simp, rfl, fun tail => by simp [readVarint, small]⟩
      · next large =>
          obtain ⟨⟨high, rest'⟩, readLater, ⟨⟩⟩ := map_eq_some_iff.1 read
          obtain ⟨used, _, rfl, again⟩ := ih readLater
          exact ⟨byte :: used, by simp, rfl, fun tail => by simp [readVarint, large, again]⟩

theorem encodeVarintAux_congr {fuel fuel' value : Nat} (enough : value ≤ fuel) (enough' : value ≤ fuel') :
    encodeVarintAux fuel value = encodeVarintAux fuel' value := by
  induction fuel generalizing fuel' value with
  | zero =>
      obtain rfl : value = 0 := Nat.le_zero.1 enough
      cases fuel' <;> rfl
  | succ fuel ih =>
      cases fuel' with
      | zero =>
          obtain rfl : value = 0 := Nat.le_zero.1 enough'
          rfl
      | succ fuel' =>
          rw [encodeVarintAux, encodeVarintAux]
          split
          · rw [ih (by omega) (by omega : value / 128 ≤ fuel')]
          · rfl

theorem encodeVarint_eq (value : Nat) : encodeVarint value =
    if value > 127 then UInt8.ofNat (value % 128 + 128) :: encodeVarint (value / 128)
    else [UInt8.ofNat value] := by
  cases value with
  | zero => rfl
  | succ value =>
      rw [encodeVarint, encodeVarintAux]
      split
      · rw [encodeVarint, encodeVarintAux_congr (by omega) (Nat.le_refl _)]
      · rfl

/-- Bytes of a number of which the last is there for a reason. -/
def MinimalVarint (number : Bytes) : Prop := number.length = 1 ∨ number.getLast? ≠ some 0

/-- There is one way to write a number in as few bytes as it takes. -/
theorem eq_encodeVarint_of_minimal {used rest : Bytes} {value : Nat}
    (reads : readVarint (used ++ rest) = some (value, rest)) (minimal : MinimalVarint used) :
    used = encodeVarint value := by
  induction used generalizing value with
  | nil =>
      obtain ⟨front, nonempty, same, -⟩ := readVarint_spec reads
      exact absurd (self_eq_append_left.1 same) nonempty
  | cons byte later ih =>
      rw [cons_append, readVarint] at reads
      split at reads
      · next small =>
          obtain ⟨rfl, only⟩ := Prod.mk.inj (Option.some.inj reads)
          obtain rfl : later = [] := append_left_eq_self.1 only
          rw [encodeVarint_eq, if_neg (by omega), UInt8.ofNat_toNat]
      · next large =>
          obtain ⟨⟨high, _⟩, readsLater, ⟨⟩⟩ := map_eq_some_iff.1 reads
          obtain ⟨front, nonempty, same, -⟩ := readVarint_spec readsLater
          obtain rfl := append_cancel_right same
          obtain ⟨next, more, rfl⟩ := exists_cons_of_ne_nil nonempty
          have ending : (next :: more).getLast? ≠ some 0 := minimal.resolve_left (by simp)
          have later := ih readsLater (.inr ending)
          have positive : high ≠ 0 := by
            rintro rfl
            rw [later] at ending
            exact ending rfl
          have bound := byte.toNat_lt
          rw [encodeVarint_eq, if_pos (by omega), later,
            show (byte.toNat - 128 + 128 * high) / 128 = high by omega,
            show (byte.toNat - 128 + 128 * high) % 128 + 128 = byte.toNat by omega, UInt8.ofNat_toNat]

/-! ### Fields -/

/-- The value of a field, by its wire type. -/
inductive WireValue where
  | varint (value : Nat)
  | fixed64 (bytes : Bytes)
  | len (bytes : Bytes)
  | fixed32 (bytes : Bytes)
deriving DecidableEq, Repr

def WireValue.wireType : WireValue → Nat
  | .varint _ => 0
  | .fixed64 _ => 1
  | .len _ => 2
  | .fixed32 _ => 5

structure WireField where
  number : Nat
  value : WireValue
deriving DecidableEq, Repr

/-- The value after a key. Bytes that are missing at the end are not. -/
def readValue (wireType : Nat) (bytes : Bytes) : Option (WireValue × Bytes) :=
  match wireType with
  | 0 => (readVarint bytes).map fun (value, rest) => (.varint value, rest)
  | 1 => some (.fixed64 (bytes.take 8), bytes.drop 8)
  | 2 => (readVarint bytes).map fun (size, rest) => (.len (rest.take size), rest.drop size)
  | 5 => some (.fixed32 (bytes.take 4), bytes.drop 4)
  | _ => none

def readField (bytes : Bytes) : Option (WireField × Bytes) :=
  (readVarint bytes).bind fun (key, rest) =>
    (readValue (key % 8) rest).map fun (value, rest) => (⟨key / 8, value⟩, rest)

def encodeKey (number wireType : Nat) : Bytes := encodeVarint (number * 8 + wireType)

def WireValue.encode : WireValue → Bytes
  | .varint value => encodeVarint value
  | .fixed64 bytes | .fixed32 bytes => bytes
  | .len bytes => encodeVarint bytes.length ++ bytes

def WireField.encode (field : WireField) : Bytes :=
  encodeKey field.number field.value.wireType ++ field.value.encode

/-- Values of a fixed width have this width. -/
def WireValue.Complete : WireValue → Prop
  | .fixed64 bytes => bytes.length = 8
  | .fixed32 bytes => bytes.length = 4
  | _ => True

/-- Values of a fixed width are not wider. -/
def WireValue.Fits : WireValue → Prop
  | .fixed64 bytes => bytes.length ≤ 8
  | .fixed32 bytes => bytes.length ≤ 4
  | _ => True

/-- A value is read back after its key, if it is complete or nothing follows. -/
theorem readValue_encode {value : WireValue} {tail : Bytes}
    (complete : value.Complete ∨ value.Fits ∧ tail = []) :
    readValue value.wireType (value.encode ++ tail) = some (value, tail) := by
  cases value with
  | varint number =>
      change (readVarint (encodeVarint number ++ tail)).map _ = _
      rw [readVarint_encodeVarint]
      rfl
  | len bytes =>
      change (readVarint (encodeVarint bytes.length ++ bytes ++ tail)).map _ = _
      rw [append_assoc, readVarint_encodeVarint]
      simp
  | fixed64 bytes =>
      change some (WireValue.fixed64 ((bytes ++ tail).take 8), (bytes ++ tail).drop 8) = _
      rcases complete with exact | ⟨fits, rfl⟩
      · rw [take_left' exact, drop_left' exact]
      · rw [append_nil, take_of_length_le fits, drop_of_length_le fits]
  | fixed32 bytes =>
      change some (WireValue.fixed32 ((bytes ++ tail).take 4), (bytes ++ tail).drop 4) = _
      rcases complete with exact | ⟨fits, rfl⟩
      · rw [take_left' exact, drop_left' exact]
      · rw [append_nil, take_of_length_le fits, drop_of_length_le fits]

theorem wireType_lt (value : WireValue) : value.wireType < 8 := by cases value <;> simp [WireValue.wireType]

variable {field : WireField}

theorem readField_encode {tail : Bytes} (complete : field.value.Complete ∨ field.value.Fits ∧ tail = []) :
    readField (field.encode ++ tail) = some (field, tail) := by
  have kind := wireType_lt field.value
  unfold readField WireField.encode encodeKey
  rw [append_assoc, readVarint_encodeVarint]
  simp only [bind_some]
  rw [Nat.mul_add_mod_self_right, Nat.mod_eq_of_lt kind, readValue_encode complete]
  simp only [map_some]
  rw [Nat.mul_comm, Nat.mul_add_div (by decide), Nat.div_eq_of_lt kind, Nat.add_zero]

/-! ### Readers -/

section

variable {α β : Type*} (read : Bytes → Option (α × Bytes))

/-- Read items until nothing is left; `fuel` bounds their number. -/
def readAllAux : Nat → Bytes → Option (List α)
  | _, [] => some []
  | 0, _ :: _ => none
  | fuel + 1, byte :: later =>
      (read (byte :: later)).bind fun (item, rest) => (readAllAux fuel rest).map (item :: ·)

/-- Read items until nothing is left. -/
def readAll (bytes : Bytes) : Option (List α) := readAllAux read bytes.length bytes

/-- An item with the bytes it was read from. -/
def withSpan (bytes : Bytes) : Option ((Bytes × α) × Bytes) :=
  (read bytes).map fun (item, rest) => ((bytes.take (bytes.length - rest.length), item), rest)

/-- A span that is read as its item, whatever follows. -/
def Delimits (entry : Bytes × α) : Prop :=
  entry.1 ≠ [] ∧ ∀ tail, read (entry.1 ++ tail) = some (entry.2, tail)

/-- A span that is read as its item where it is the last. -/
def Ends (entry : Bytes × α) : Prop := entry.1 ≠ [] ∧ read entry.1 = some (entry.2, [])

/-- Spans of which all but the last end by themselves. -/
def Framed : List (Bytes × α) → Prop
  | [] => True
  | [entry] => Ends read entry
  | entry :: next :: rest => Delimits read entry ∧ Framed (next :: rest)

/-- What a reader has to do: it takes at least one byte, and an item that is followed by something ends by
itself. -/
structure IsReader : Prop where
  spec : ∀ {bytes item rest}, read bytes = some (item, rest) →
    ∃ used, bytes = used ++ rest ∧ Ends read (used, item) ∧ (rest ≠ [] → Delimits read (used, item))

variable {read} {entry : Bytes × α} {items : List (Bytes × α)} {bytes : Bytes}

theorem Delimits.ends (delimits : Delimits read entry) :
    Ends read entry := ⟨delimits.1, by simpa using delimits.2 []⟩

theorem Framed.cons (delimits : Delimits read entry) (framed : Framed read items) :
    Framed read (entry :: items) := by
  cases items with
  | nil => exact delimits.ends
  | cons next rest => exact ⟨delimits, framed⟩

theorem Framed.append {front : List (Bytes × α)} (delimits : ∀ entry ∈ front, Delimits read entry)
    (framed : Framed read items) : Framed read (front ++ items) := by
  induction front with
  | nil => exact framed
  | cons entry rest ih =>
      obtain ⟨here, later⟩ := forall_mem_cons.1 delimits
      exact .cons here (ih later)

theorem framed_of_delimits (delimits : ∀ entry ∈ items, Delimits read entry) : Framed read items := by
  rw [← append_nil items]
  exact .append delimits trivial

/-- Items may be dropped. -/
theorem Framed.filter (framed : Framed read items) (keeps : Bytes × α → Bool) :
    Framed read (items.filter keeps) := by
  induction items with
  | nil => trivial
  | cons entry rest ih =>
      cases rest with
      | nil =>
          cases kept : keeps entry with
          | false => simp [kept, Framed]
          | true => simpa [kept] using framed
      | cons next rest =>
          obtain ⟨delimits, framed⟩ := framed
          cases kept : keeps entry with
          | false =>
              rw [filter_cons_of_neg (by simp [kept])]
              exact ih framed
          | true =>
              rw [filter_cons_of_pos kept]
              exact .cons delimits (ih framed)

/-- Items may be replaced by items that end by themselves if the old ones did. -/
theorem Framed.replace {read' : Bytes → Option (β × Bytes)} {items' : List (Bytes × β)}
    (framed : Framed read items)
    (keeps : List.Forall₂ (fun entry entry' => (Delimits read entry → Delimits read' entry') ∧
      (Ends read entry → Ends read' entry')) items items') : Framed read' items' := by
  induction keeps with
  | nil => trivial
  | cons here later ih =>
      cases later with
      | nil => exact here.2 framed
      | cons next later => exact ⟨here.1 framed.1, ih framed.2⟩

theorem Framed.ends (framed : Framed read items) : ∀ entry ∈ items, Ends read entry := by
  induction items with
  | nil => simp
  | cons entry rest ih =>
      cases rest with
      | nil =>
          intro entry member
          cases mem_singleton.1 member
          exact framed
      | cons next rest => exact forall_mem_cons.2 ⟨framed.1.ends, ih framed.2⟩

/-- The bytes of a list of spans. -/
def spans (items : List (Bytes × α)) : Bytes := (items.map Prod.fst).flatten

@[simp] theorem spans_nil : spans ([] : List (Bytes × α)) = [] := rfl

@[simp] theorem spans_cons (entry : Bytes × α) (items : List (Bytes × α)) :
    spans (entry :: items) = entry.1 ++ spans items := rfl

theorem span_infix_spans (member : entry ∈ items) : entry.1 <:+: spans items := by
  obtain ⟨before, after, rfl⟩ := append_of_mem member
  exact ⟨spans before, spans after, by simp [spans]⟩

theorem readAllAux_of_framed (framed : Framed read items) {fuel : Nat}
    (enough : (spans items).length ≤ fuel) :
    readAllAux read fuel (spans items) = some (items.map Prod.snd) := by
  induction items generalizing fuel with
  | nil => rw [spans_nil, readAllAux, map_nil]
  | cons entry rest ih =>
      have step : entry.1 ≠ [] ∧ read (entry.1 ++ spans rest) = some (entry.2, spans rest) ∧
        Framed read rest := by
        cases rest with
        | nil => exact ⟨framed.1, by simpa using framed.2, trivial⟩
        | cons next rest => exact ⟨framed.1.1, framed.1.2 _, framed.2⟩
      obtain ⟨nonempty, reads, framed⟩ := step
      rw [spans_cons] at enough ⊢
      obtain ⟨byte, later, same⟩ := exists_cons_of_ne_nil nonempty
      rw [same, cons_append] at enough reads ⊢
      cases fuel with
      | zero => simp at enough
      | succ fuel =>
          simp only [length_cons, length_append] at enough
          have all := ih framed (show (spans rest).length ≤ fuel by omega)
          simp only [readAllAux, reads, bind_some, all, map_some, map_cons]

/-- Framed spans are read back as their items. -/
theorem readAll_of_framed (framed : Framed read items) :
    readAll read (spans items) = some (items.map Prod.snd) :=
  readAllAux_of_framed framed (Nat.le_refl _)

theorem readAllAux_spans (reader : IsReader read) {fuel : Nat} {list : List α}
    (all : readAllAux read fuel bytes = some list) :
    ∃ items, items.map Prod.snd = list ∧ spans items = bytes ∧ Framed read items := by
  fun_induction readAllAux read fuel bytes generalizing list with
  | case1 =>
      cases all
      exact ⟨[], rfl, rfl, trivial⟩
  | case2 => cases all
  | case3 fuel byte later ih =>
      obtain ⟨⟨item, rest⟩, reads, all⟩ := bind_eq_some_iff.1 all
      obtain ⟨list', allRest, rfl⟩ := map_eq_some_iff.1 all
      obtain ⟨used, same, ends, delimits⟩ := reader.spec reads
      obtain ⟨items, rfl, rfl, framed⟩ := ih _ allRest
      refine ⟨(used, item) :: items, rfl, same.symm, ?_⟩
      cases items with
      | nil => exact ends
      | cons next rest =>
          have nonempty := (framed.ends next mem_cons_self).1
          exact ⟨delimits (by simp [nonempty]), framed⟩

/-- What is read has spans that make up the input, and they are framed. -/
theorem framed_of_readAll (reader : IsReader read) {list : List α} (all : readAll read bytes = some list) :
    ∃ items, items.map Prod.snd = list ∧ spans items = bytes ∧ Framed read items :=
  readAllAux_spans reader all

/-- A framed list is read back with its spans. -/
theorem readAll_withSpan_of_framed (framed : Framed read items) :
    readAll (withSpan read) (spans items) = some items := by
  have spanned : Framed (withSpan read) (items.map fun entry => (entry.1, entry)) := by
    refine framed.replace (forall₂_map_right_iff.2 (forall₂_same.2 fun entry _ => ?_))
    refine ⟨fun delimits => ⟨delimits.1, fun tail => ?_⟩, fun ends => ⟨ends.1, ?_⟩⟩
    · simp [withSpan, delimits.2 tail]
    · simp [withSpan, ends.2]
  have all := readAll_of_framed spanned
  simp only [spans, map_map, Function.comp_def, map_id'] at all
  exact all

theorem readAllAux_withSpan {fuel : Nat} (all : readAllAux (withSpan read) fuel bytes = some items) :
    readAllAux read fuel bytes = some (items.map Prod.snd) := by
  fun_induction readAllAux (withSpan read) fuel bytes generalizing items with
  | case1 =>
      cases all
      rw [readAllAux, map_nil]
  | case2 => cases all
  | case3 fuel byte later ih =>
      obtain ⟨⟨entry, rest⟩, spanned, all⟩ := bind_eq_some_iff.1 all
      obtain ⟨items', allRest, rfl⟩ := map_eq_some_iff.1 all
      obtain ⟨⟨item, rest'⟩, reads, ⟨⟩⟩ := map_eq_some_iff.1 spanned
      simp only [readAllAux, reads, bind_some, ih _ allRest, map_some, map_cons]

/-- Items read with their spans: the spans make up the input and are framed, and the items are the same.
-/
theorem readAll_withSpan (reader : IsReader read) (all : readAll (withSpan read) bytes = some items) :
    spans items = bytes ∧ Framed read items ∧ readAll read bytes = some (items.map Prod.snd) := by
  have plain : readAll read bytes = some (items.map Prod.snd) := readAllAux_withSpan all
  obtain ⟨items', _, rfl, framed⟩ := framed_of_readAll reader plain
  have again := readAll_withSpan_of_framed framed
  rw [all] at again
  cases again
  exact ⟨rfl, framed, plain⟩

end

/-! ### Fields are read by a reader -/

theorem readValue_spec {wireType : Nat} {value : WireValue}
    (reads : readValue wireType bytes = some (value, rest)) :
    ∃ used, bytes = used ++ rest ∧ readValue wireType used = some (value, []) ∧ value.Fits ∧
      (rest ≠ [] → value.Complete ∧ ∀ tail, readValue wireType (used ++ tail) = some (value, tail)) := by
  have fixed (width : Nat) (bytes tail : Bytes) (long : bytes.drop width ≠ []) :
      (bytes.take width).length = width ∧ (bytes.take width ++ tail).take width = bytes.take width ∧
        (bytes.take width ++ tail).drop width = tail := by
    have exact : (bytes.take width).length = width :=
      length_take_of_le (Nat.le_of_lt (length_lt_of_drop_ne_nil long))
    exact ⟨exact, take_left' exact, drop_left' exact⟩
  unfold readValue at reads
  split at reads
  · obtain ⟨⟨number, rest'⟩, readNumber, same⟩ := map_eq_some_iff.1 reads
    cases same
    obtain ⟨used, _, rfl, again⟩ := readVarint_spec readNumber
    refine ⟨used, rfl, ?_, trivial, fun _ => ⟨trivial, fun tail => ?_⟩⟩
    · simpa [readValue] using again []
    · simp [readValue, again]
  · cases reads
    refine ⟨bytes.take 8, (take_append_drop 8 bytes).symm, ?_, length_take_le _ _, fun long => ?_⟩
    · simp [readValue, take_take]
    · obtain ⟨exact, taken, dropped⟩ := fixed 8 bytes [] long
      exact ⟨exact, fun tail => by simp only [readValue, fixed 8 bytes tail long]⟩
  · obtain ⟨⟨size, rest'⟩, readSize, same⟩ := map_eq_some_iff.1 reads
    cases same
    obtain ⟨used, _, rfl, again⟩ := readVarint_spec readSize
    refine ⟨used ++ rest'.take size, by simp, ?_, trivial, fun long => ⟨trivial, fun tail => ?_⟩⟩
    · simp [readValue, again, take_take]
    · simp only [readValue, append_assoc, again, map_some, fixed size rest' tail long]
  · cases reads
    refine ⟨bytes.take 4, (take_append_drop 4 bytes).symm, ?_, length_take_le _ _, fun long => ?_⟩
    · simp [readValue, take_take]
    · exact ⟨(fixed 4 bytes [] long).1, fun tail => by simp only [readValue, fixed 4 bytes tail long]⟩
  · cases reads

theorem readField_spec (reads : readField bytes = some (field, rest)) :
    ∃ used, bytes = used ++ rest ∧ Ends readField (used, field) ∧ field.value.Fits ∧
      (rest ≠ [] → field.value.Complete ∧ Delimits readField (used, field)) := by
  obtain ⟨⟨key, afterKey⟩, readKey, reads⟩ := bind_eq_some_iff.1 reads
  obtain ⟨⟨value, rest'⟩, readsValue, ⟨⟩⟩ := map_eq_some_iff.1 reads
  obtain ⟨keyBytes, nonempty, rfl, keyAgain⟩ := readVarint_spec readKey
  obtain ⟨used, rfl, ends, fits, delimits⟩ := readValue_spec readsValue
  refine ⟨keyBytes ++ used, by simp, ⟨by simp [nonempty], ?_⟩, fits, fun long =>
    ⟨(delimits long).1, by simp [nonempty],
    fun tail => ?_⟩⟩
  · simp [readField, keyAgain, ends]
  · simp [readField, keyAgain, (delimits long).2]

theorem isReader_readField : IsReader readField where
  spec reads := by
    obtain ⟨used, same, ends, _, delimits⟩ := readField_spec reads
    exact ⟨used, same, ends, fun long => (delimits long).2⟩

/-- The bytes of a value with a length stand in the bytes of its field. -/
theorem len_within {bytes rest payload : Bytes} {number : Nat}
    (reads : readField bytes = some (⟨number, .len payload⟩, rest)) : payload <:+: bytes := by
  obtain ⟨⟨key, afterKey⟩, readKey, reads⟩ := bind_eq_some_iff.1 reads
  obtain ⟨⟨value, rest'⟩, readsValue, ⟨⟩⟩ := map_eq_some_iff.1 reads
  obtain ⟨keyBytes, _, rfl, _⟩ := readVarint_spec readKey
  unfold readValue at readsValue
  split at readsValue
  · obtain ⟨_, _, same⟩ := map_eq_some_iff.1 readsValue
    cases same
  · cases readsValue
  · obtain ⟨⟨size, afterSize⟩, readSize, same⟩ := map_eq_some_iff.1 readsValue
    cases same
    obtain ⟨sizeBytes, _, rfl, _⟩ := readVarint_spec readSize
    exact ⟨keyBytes ++ sizeBytes, afterSize.drop size, by simp⟩
  · cases readsValue
  · cases readsValue

theorem encode_delimits (complete : field.value.Complete) : Delimits readField (field.encode, field) :=
  ⟨append_ne_nil_of_left_ne_nil (encodeVarint_ne_nil _) _, fun _ => readField_encode (.inl complete)⟩

/-- The payload of a field that is read stands in what it is read from. -/
theorem payload_within {bytes payload : Bytes} {fields : List WireField} {number : Nat}
    (all : readAll readField bytes = some fields) (member : ⟨number, .len payload⟩ ∈ fields) :
    payload <:+: bytes := by
  obtain ⟨items, rfl, rfl, framed⟩ := framed_of_readAll isReader_readField all
  obtain ⟨⟨span, field⟩, item, ⟨⟩⟩ := mem_map.1 member
  exact (len_within (framed.ends _ item).2).trans (span_infix_spans item)

/-- A field is written so that it ends by itself if it did where it was read. -/
theorem encode_keeps {span : Bytes} :
    (Delimits readField (span, field) → Delimits readField (field.encode, field)) ∧
      (Ends readField (span, field) → Ends readField (field.encode, field)) := by
  constructor
  · intro delimits
    obtain ⟨_, _, _, _, complete⟩ := readField_spec (delimits.2 [0])
    exact encode_delimits (complete (by simp)).1
  · intro ends
    obtain ⟨_, _, _, fits, _⟩ := readField_spec ends.2
    have reads := readField_encode (.inr ⟨fits, rfl⟩)
    rw [append_nil] at reads
    exact ⟨append_ne_nil_of_left_ne_nil (encodeVarint_ne_nil _) _, reads⟩

end WireFormat
