/-
Module: MallocHook.Proofs.PacketReading
Purpose: What is written is read back: the fields of a message, and the packets that `make_packet`
  makes. The packets of the two overlays are of one form.
Trusted boundary: none
Main exports: iterFields_encode, firstField_eq, MadePacket
-/
import MallocHook.Core.PerfettoProto

namespace MallocHook

open WireFormat List

/-! ### Self-contained list helpers -/

theorem mapM_eq_some_iff_forall₂ {α β : Type*} {f : α → Option β} {list : List α} {results : List β} :
    list.mapM f = some results ↔ List.Forall₂ (fun item result => f item = some result) list results := by
  induction list generalizing results with
  | nil => simp [eq_comm]
  | cons item rest ih =>
      rw [mapM_cons]
      constructor
      · intro all
        obtain ⟨result, found, all⟩ := Option.bind_eq_some_iff.1 all
        obtain ⟨results', later, ⟨⟩⟩ := Option.bind_eq_some_iff.1 all
        exact .cons found (ih.1 later)
      · intro all
        cases all with
        | cons found later =>
            rw [found, ih.2 later]
            rfl

theorem exists_of_forall₂ {α β : Type*} {related : α → β → Prop} {list : List α} {list' : List β}
    (all : List.Forall₂ related list list') : ∀ item' ∈ list', ∃ item ∈ list, related item item' := by
  induction all with
  | nil => simp
  | cons here later ih =>
      refine forall_mem_cons.2 ⟨⟨_, mem_cons_self, here⟩, fun item' member => ?_⟩
      obtain ⟨item, there, holds⟩ := ih item' member
      exact ⟨item, mem_cons_of_mem _ there, holds⟩

/-! ### Fields -/

@[simp] theorem lenOf_len (number : Nat) (payload : Bytes) :
    lenOf number ⟨number, .len payload⟩ = some payload := by
  simp [lenOf]

theorem lenOf_eq_some_iff {number : Nat} {field : WireField} {payload : Bytes} :
    lenOf number field = some payload ↔ field = ⟨number, .len payload⟩ := by
  obtain ⟨number', value⟩ := field
  cases value <;> simp [lenOf]

theorem varintOf_eq_some_iff {number value : Nat} {field : WireField} :
    varintOf number field = some value ↔ field = ⟨number, .varint value⟩ := by
  obtain ⟨number', value'⟩ := field
  cases value' <;> simp [varintOf]

/-- A field is written again, or a complete one in its place. -/
theorem encode_replaces {span : Bytes} {field field' : WireField}
    (replaces : field' = field ∨ field'.value.Complete) :
    (Delimits readField (span, field) → Delimits readField (field'.encode, field')) ∧
      (Ends readField (span, field) → Ends readField (field'.encode, field')) := by
  rcases replaces with rfl | complete
  · exact encode_keeps
  · exact ⟨fun _ => encode_delimits complete, fun _ => (encode_delimits complete).ends⟩

/-- Fields that are written again are read back. -/
theorem framed_encode {items : List (Bytes × WireField)} {fields' : List WireField}
    (framed : Framed readField items)
    (replaces : List.Forall₂ (fun entry field' => field' = entry.2 ∨ field'.value.Complete) items fields') :
    Framed readField (fields'.map fun field => (field.encode, field)) :=
  framed.replace (forall₂_map_right_iff.2 (replaces.imp fun _ _ => encode_replaces))

section

variable {fields : List WireField}

theorem iterFields_of_framed (framed : Framed readField (fields.map fun field => (field.encode, field))) :
    iterFields (fields.map WireField.encode).flatten = some fields := by
  have all := readAll_of_framed framed
  simp only [spans, map_map, Function.comp_def, map_id'] at all
  exact all

@[simp] theorem complete_varint (value : Nat) : (WireValue.varint value).Complete := trivial

@[simp] theorem complete_len (payload : Bytes) : (WireValue.len payload).Complete := trivial

/-- Complete fields are read back. -/
theorem iterFields_encode (complete : ∀ field ∈ fields, field.value.Complete) :
    iterFields (fields.map WireField.encode).flatten = some fields := by
  refine iterFields_of_framed (framed_of_delimits fun entry member => ?_)
  obtain ⟨field, there, rfl⟩ := mem_map.1 member
  exact encode_delimits (complete field there)

theorem firstFieldAux_of_readAllAux {β : Type*} {select : WireField → Option β} {fuel : Nat} {buf : Bytes}
    {fields : List WireField} (all : readAllAux readField fuel buf = some fields) :
    firstFieldAux select fuel buf = some (fields.findSome? select) := by
  induction fuel generalizing buf fields with
  | zero =>
      cases buf with
      | nil =>
          cases all
          rfl
      | cons byte later => cases all
  | succ fuel ih =>
      cases buf with
      | nil =>
          cases all
          rfl
      | cons byte later =>
          obtain ⟨⟨field, rest⟩, reads, all⟩ := Option.bind_eq_some_iff.1 all
          obtain ⟨fields', allRest, rfl⟩ := Option.map_eq_some_iff.1 all
          rw [firstFieldAux, reads, Option.bind_some, List.findSome?_cons]
          dsimp only
          cases select field with
          | none => exact ih allRest
          | some found => rfl

/-- In a message that can be read to its end, a search finds the first field. -/
theorem firstField_eq {β : Type*} {select : WireField → Option β} {buf : Bytes} {fields : List WireField}
    (all : iterFields buf = some fields) : firstField select buf = some (fields.findSome? select) :=
  firstFieldAux_of_readAllAux all

/-! ### Packets -/

/-- The fields of a packet that `make_packet` makes. -/
def packetFields (sequenceId : Nat) (flags : Option Nat) (firstPacket : Bool) (fields : List WireField) :
    List WireField :=
  [⟨10, .varint sequenceId⟩] ++ (flags.map fun flags => (⟨13, .varint flags⟩ : WireField)).toList ++
    (if firstPacket then [⟨87, .varint 1⟩] else []) ++ fields

theorem packetFields_complete {sequenceId : Nat} {flags : Option Nat} {firstPacket : Bool}
    (complete : ∀ field ∈ fields, field.value.Complete) :
    ∀ field ∈ packetFields sequenceId flags firstPacket fields, field.value.Complete := by
  cases flags <;> cases firstPacket <;> simpa [packetFields] using complete

theorem makePacket_eq (sequenceId : Nat) (flags : Option Nat) (firstPacket : Bool)
    (fields : List WireField) :
    makePacket (fields.map WireField.encode) sequenceId flags firstPacket =
      encodeLenField 1 ((packetFields sequenceId flags firstPacket fields).map
      WireField.encode).flatten := by
  cases flags <;> cases firstPacket <;> simp [makePacket, packetFields, encodeVarField]

end

/-- A packet that an overlay adds: a descriptor, or an event at a time, with the fields of its message. -/
inductive MadePacket where
  | descriptor (first : Bool) (message : List WireField)
  | event (ts : Nat) (message : List WireField)

namespace MadePacket

def message : MadePacket → List WireField
  | .descriptor _ message | .event _ message => message

/-- The bytes of the message. -/
def payload (made : MadePacket) : Bytes := (made.message.map WireField.encode).flatten

def fields (seq clockId : Nat) (made : MadePacket) : List WireField :=
  match made with
  | .descriptor first _ =>
      packetFields seq (some (if first then seqIncrementalStateCleared else seqNeedsIncrementalState)) first
        [⟨60, .len made.payload⟩]
  | .event ts _ =>
      packetFields seq (some seqNeedsIncrementalState) false
        [⟨8, .varint ts⟩, ⟨58, .varint clockId⟩, ⟨11, .len made.payload⟩]

def bytes (seq clockId : Nat) (made : MadePacket) : Bytes :=
  ((made.fields seq clockId).map WireField.encode).flatten

variable (seq clockId : Nat) (made : MadePacket)

theorem iterFields_bytes : iterFields (made.bytes seq clockId) = some (made.fields seq clockId) := by
  refine iterFields_encode ?_
  cases made <;> exact packetFields_complete (by simp)

/-- There are no packets in it. -/
theorem no_compressed : ∀ field ∈ made.fields seq clockId, lenOf 50 field = none := by
  rcases made with ⟨_ | _, message⟩ | ⟨ts, message⟩ <;> simp [fields, packetFields, lenOf]

/-- What is read from the messages of the descriptors of a packet. -/
theorem flatMap_descriptors {γ : Type*} (read : Bytes → List γ) :
    (((iterFields (made.bytes seq clockId)).getD []).flatMap fun field => (lenOf 60 field).elim [] read) =
      match made with
      | .descriptor _ _ => read made.payload
      | .event _ _ => [] := by
  rcases made with ⟨_ | _, message⟩ | ⟨ts, message⟩ <;> simp [iterFields_bytes, fields, packetFields, lenOf]

/-- What is read from the messages of the events of a packet. -/
theorem flatMap_events {γ : Type*} (read : Bytes → List γ) :
    (((iterFields (made.bytes seq clockId)).getD []).flatMap fun field => (lenOf 11 field).elim [] read) =
      match made with
      | .descriptor _ _ => []
      | .event _ _ => read made.payload := by
  rcases made with ⟨_ | _, message⟩ | ⟨ts, message⟩ <;> simp [iterFields_bytes, fields, packetFields, lenOf]

end MadePacket

/-- A snapshot of the wall clock and of the clock of the trace. -/
def clockPacket : Bytes :=
  encodeLenField 6 (encodeLenField 1 (encodeVarField 1 1 ++ encodeVarField 2 1000) ++
    encodeLenField 1 (encodeVarField 1 6 ++ encodeVarField 2 500) ++ encodeVarField 2 6)

end MallocHook
