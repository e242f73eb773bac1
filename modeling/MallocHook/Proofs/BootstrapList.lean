/-
Module: MallocHook.Proofs.BootstrapList
Purpose: What the list of bootstrap blocks looks like in memory, and what the functions do to it.
Trusted boundary: none
Main exports: HeapHolds.isBootstrapPointer_eq, HeapHolds.push
-/
import MallocHook.Lib.Links
import MallocHook.Proofs.BootstrapPlacement

namespace MallocHook

open List

/-! ### Blocks -/

/-- A block and the mapping that it lies in. -/
structure Block where
  map : UInt64
  mapSize : UInt64
  size : UInt64
  pointer : UInt64
  mapped : map ≠ 0
  header_in : map.toNat + 48 ≤ pointer.toNat
  payload_in : pointer.toNat + size.toNat ≤ map.toNat + mapSize.toNat
  fits : map.toNat + mapSize.toNat < 2 ^ 64

namespace Block

variable (block : Block)

/-- The header is directly below the payload. -/
def header : UInt64 := block.pointer - kHeaderBytes

/-- The mappings do not overlap. -/
def Apart (one two : Block) : Prop :=
  one.map.toNat + one.mapSize.toNat ≤ two.map.toNat ∨ two.map.toNat + two.mapSize.toNat ≤ one.map.toNat

theorem Apart.symm {one two : Block} (apart : one.Apart two) : two.Apart one := Or.symm apart

theorem header_add : block.header + kHeaderBytes = block.pointer := UInt64.sub_add_cancel _ _

theorem toNat_header : block.header.toNat + 48 = block.pointer.toNat := by
  have inside := block.header_in
  have header : kHeaderBytes.toNat = 48 := rfl
  rw [Block.header, UInt64.toNat_sub_of_le _ _ (UInt64.le_iff_toNat_le.2 (by omega)), header]
  omega

theorem map_pos :
    0 < block.map.toNat := Nat.pos_of_ne_zero fun zero => block.mapped (UInt64.toNat_inj.1 zero)

/-- The header lies in the mapping. -/
theorem map_le_header : block.map.toNat ≤ block.header.toNat := by
  have sum := block.toNat_header
  have inside := block.header_in
  omega

theorem header_le : block.header.toNat + 40 ≤ block.map.toNat + block.mapSize.toNat := by
  have sum := block.toNat_header
  have inside := block.payload_in
  omega

theorem header_ne_zero : block.header ≠ 0 := by
  intro zero
  have inside := block.map_le_header
  rw [zero] at inside
  exact absurd inside (Nat.not_le.2 block.map_pos)

theorem pointer_ne_zero : block.pointer ≠ 0 := by
  intro zero
  have inside := block.header_in
  rw [zero] at inside
  exact absurd inside (by change ¬_ ≤ 0; omega)

/-- The addresses of the fields of a header. -/
theorem toNat_field (offset : UInt64) (small : offset.toNat ≤ 40) :
    (block.header + offset).toNat = block.header.toNat + offset.toNat := by
  have sum := block.toNat_header
  have inside := block.payload_in
  have fits := block.fits
  exact ByteMemory.toNat_add (by omega)

theorem toNat_fields :
    (block.header + 8).toNat = block.header.toNat + 8 ∧ (block.header + 16).toNat = block.header.toNat + 16 ∧
      (block.header + 24).toNat = block.header.toNat + 24 ∧
      (block.header + 32).toNat = block.header.toNat + 32 :=
  ⟨block.toNat_field 8 (by decide), block.toNat_field 16 (by decide), block.toNat_field 24 (by decide),
    block.toNat_field 32 (by decide)⟩

variable {block}

/-- Writing a field of the header leaves alone what lies apart from it. -/
theorem agreeOn_setField (block : Block) {low high : Nat} {memory memory' : ByteMemory}
    (agree : ByteMemory.AgreeOn low high memory memory')
    (apart : high ≤ block.header.toNat ∨ block.header.toNat + 40 ≤ low) (offset : UInt64)
    (small : offset.toNat ≤ 32) (value : UInt64) :
    ByteMemory.AgreeOn low high memory (memory'.setWord (block.header + offset) value) := by
  have address := block.toNat_field offset (by omega)
  have bound := block.pointer.toNat_lt
  have sum := block.toNat_header
  exact agree.trans ((ByteMemory.setWord_writesOnly _ _ _).agreeOn (by omega) (by omega))

variable {other : Block}

theorem Apart.header_ne (apart : block.Apart other) : block.header ≠ other.header := by
  intro same
  have := block.map_le_header
  have := block.header_le
  have := other.map_le_header
  have := other.header_le
  unfold Apart at apart
  rw [same] at *
  omega

/-- What lies in the mapping of another block lies apart from the header. -/
theorem Apart.outside_header (apart : other.Apart block) {low high : Nat} (above : other.map.toNat ≤ low)
    (below : high ≤ other.map.toNat + other.mapSize.toNat) :
    high ≤ block.header.toNat ∨ block.header.toNat + 40 ≤ low := by
  have := block.toNat_header
  have := block.header_in
  have := block.payload_in
  unfold Apart at apart
  omega

theorem Apart.pointer_ne (apart : block.Apart other) : block.pointer ≠ other.pointer := by
  intro same
  exact apart.header_ne (by rw [header, header, same])

/-- The header is in no other mapping. -/
theorem Apart.outside_mapping (apart : other.Apart block) :
    block.header.toNat < other.map.toNat ∨ other.map.toNat + other.mapSize.toNat ≤ block.header.toNat := by
  have := block.map_le_header
  have := block.header_le
  unfold Apart at apart
  omega

end Block

/-! ### The list in memory -/

/-- A pointer that may be null. -/
def toLink (pointer : UInt64) : Option UInt64 := if pointer = 0 then none else some pointer

/-- The header that a header links to. -/
def linkOf (heap : BootstrapHeap) (header : UInt64) : Option UInt64 := toLink (heap.next header)

/-- The fields of the header of a block. -/
structure HeaderHolds (heap : BootstrapHeap) (block : Block) : Prop where
  mapBase : heap.mapBase block.header = block.map
  mapSize : heap.mapSize block.header = block.mapSize
  requestedSize : heap.requestedSize block.header = block.size
  magic : heap.magic block.header = kBootstrapMagic

/-- The list holds these blocks, and their mappings are the ones that the kernel has made. -/
structure HeapHolds (heap : BootstrapHeap) (blocks : List Block) : Prop where
  linked : Linked (linkOf heap) (toLink heap.list) (blocks.map Block.header)
  headers : ∀ block ∈ blocks, HeaderHolds heap block
  apart : blocks.Pairwise Block.Apart
  mappings : heap.mappings = blocks.map fun block => (block.map, block.mapSize)

/-- A header and its link are read from the memory of the header. -/
theorem HeaderHolds.congr {heap : BootstrapHeap} {block : Block} (holds : HeaderHolds heap block)
    {memory : ByteMemory}
    (agree : ByteMemory.AgreeOn block.header.toNat (block.header.toNat + 40) heap.memory memory) :
    HeaderHolds { heap with memory := memory } block ∧
      linkOf { heap with memory := memory } block.header = linkOf heap block.header := by
  have sum := block.toNat_header
  have bound := block.pointer.toNat_lt
  have field {offset : UInt64} (small : offset.toNat ≤ 32) :
      memory.word (block.header + offset) = heap.memory.word (block.header + offset) := by
    have address := block.toNat_field offset (by omega)
    exact agree.word_eq (by omega) (by omega) (by omega)
  refine ⟨⟨?_, (field (by decide)).trans holds.mapSize, (field (by decide)).trans holds.requestedSize,
    (field (by decide)).trans holds.magic⟩, congrArg toLink (field (by decide))⟩
  exact (agree.word_eq (by omega) (Nat.le_refl _) (by omega)).trans holds.mapBase

namespace HeapHolds

variable {heap : BootstrapHeap} {blocks : List Block}

/-- Memory in which no header has changed. -/
theorem congr (holds : HeapHolds heap blocks) {memory : ByteMemory}
    (agree : ∀ block ∈ blocks, ByteMemory.AgreeOn block.header.toNat (block.header.toNat + 40)
      heap.memory memory) :
    HeapHolds { heap with memory := memory } blocks where
  linked := by
    refine holds.linked.congr fun header member => ?_
    obtain ⟨block, there, rfl⟩ := mem_map.1 member
    exact ((holds.headers block there).congr (agree block there)).2
  headers block member := ((holds.headers block member).congr (agree block member)).1
  apart := holds.apart
  mappings := holds.mappings

/-! ### Looking up -/

/-- There are not more headers than addresses. -/
theorem length_lt (holds : HeapHolds heap blocks) : blocks.length < kListFuel := by
  have distinct : ((blocks.map Block.header).map UInt64.toNat).Nodup :=
    holds.linked.nodup.map fun _ _ => UInt64.toNat_inj.1
  have small : (blocks.map Block.header).map UInt64.toNat ⊆ List.range (2 ^ 64) := by
    intro n member
    obtain ⟨header, _, rfl⟩ := mem_map.1 member
    exact mem_range.2 header.toNat_lt
  have few := (distinct.subperm small).length_le
  rw [length_map, length_map, length_range] at few
  exact Nat.lt_succ_of_le few

theorem findBlock_eq {headers : List UInt64} {header : UInt64}
    (linked : Linked (linkOf heap) (toLink header) headers) (pointer : UInt64) {fuel : Nat}
    (enough : headers.length < fuel) :
    findBlock heap pointer fuel header =
      some (headers.any fun header => heap.magic header == kBootstrapMagic && header +
      kHeaderBytes == pointer) := by
  induction headers generalizing header fuel with
  | nil =>
      obtain ⟨fuel, rfl⟩ := Nat.exists_eq_succ_of_ne_zero (Nat.ne_of_gt enough)
      have zero : header = 0 := by simpa [toLink] using linked.start_eq_none
      simp [findBlock, zero]
  | cons first later ih =>
      obtain ⟨fuel, rfl⟩ := Nat.exists_eq_succ_of_ne_zero (Nat.ne_of_gt (Nat.zero_lt_of_lt enough))
      obtain ⟨nonzero, rfl⟩ : header ≠ 0 ∧ header = first := by simpa [toLink] using linked.head_eq
      rw [findBlock, if_neg nonzero, any_cons]
      split_ifs with found
      · rw [found, Bool.true_or]
      · rw [Bool.eq_false_iff.2 found, Bool.false_or]
        exact ih linked.tail (Nat.lt_of_succ_lt_succ enough)

/-- `IsBootstrapPointer` answers for the blocks on the list. -/
theorem isBootstrapPointer_eq (holds : HeapHolds heap blocks) (pointer : UInt64) :
    isBootstrapPointer heap pointer = some (decide (pointer ∈ blocks.map Block.pointer)) := by
  unfold isBootstrapPointer
  by_cases zero : pointer = 0
  · rw [if_pos zero, decide_eq_false]
    intro member
    obtain ⟨block, _, same⟩ := mem_map.1 member
    exact block.pointer_ne_zero (same.trans zero)
  · rw [if_neg zero, findBlock_eq holds.linked pointer (by rw [length_map]; exact holds.length_lt), any_map]
    congr 1
    rw [Bool.eq_iff_iff, any_eq_true, decide_eq_true_eq, mem_map]
    refine exists_congr fun block => and_congr_right fun member => ?_
    simp [(holds.headers block member).magic, block.header_add]

/-! ### A new block -/

/-- The words of the header are all that is written. -/
theorem push_agreeOn (heap : BootstrapHeap) (block : Block) {low high : Nat}
    (apart : high ≤ block.header.toNat ∨ block.header.toNat + 40 ≤ low) :
    ByteMemory.AgreeOn low high heap.memory (heap.push block.header block.map block.mapSize
      block.size).memory := by
  have start : ByteMemory.AgreeOn low high heap.memory (heap.memory.setWord block.header block.map) := by
    have bound := block.pointer.toNat_lt
    have sum := block.toNat_header
    exact (ByteMemory.setWord_writesOnly _ _ _).agreeOn (by omega) (by omega)
  have second := block.agreeOn_setField start apart 8 (by decide) block.mapSize
  have third := block.agreeOn_setField second apart 16 (by decide) block.size
  have fourth := block.agreeOn_setField third apart 24 (by decide) kBootstrapMagic
  exact block.agreeOn_setField fourth apart 32 (by decide) heap.list

/-- The fields of the header that has been written. -/
theorem push_fields (heap : BootstrapHeap) (block : Block) :
    HeaderHolds (heap.push block.header block.map block.mapSize block.size) block ∧
      (heap.push block.header block.map block.mapSize block.size).next block.header = heap.list := by
  have sum := block.toNat_header
  have bound := block.pointer.toNat_lt
  obtain ⟨eight, sixteen, twentyFour, thirtyTwo⟩ := block.toNat_fields
  refine ⟨⟨?_, ?_, ?_, ?_⟩, ?_⟩
  all_goals
    simp only [BootstrapHeap.push, BootstrapHeap.mapBase, BootstrapHeap.mapSize, BootstrapHeap.requestedSize,
      BootstrapHeap.magic, BootstrapHeap.next]
    simp (disch := omega) only [ByteMemory.word_setWord_of_apart, ByteMemory.word_setWord]

/-- A block in a mapping of its own comes to the front of the list. -/
theorem push (holds : HeapHolds heap blocks) {block : Block} (apart : ∀ other ∈ blocks, block.Apart other) :
    HeapHolds (heap.push block.header block.map block.mapSize block.size) (block :: blocks) := by
  obtain ⟨fields, next⟩ := push_fields heap block
  have others : HeapHolds { heap with memory := (heap.push block.header block.map block.mapSize
    block.size).memory } blocks :=
    holds.congr fun other member => push_agreeOn heap block
      ((apart other member).symm.outside_header other.map_le_header other.header_le)
  refine ⟨?_, forall_mem_cons.2 ⟨fields, fun other member => ?_⟩, pairwise_cons.2 ⟨apart, holds.apart⟩, ?_⟩
  · have first : toLink (heap.push block.header block.map block.mapSize block.size).list =
      some block.header :=
      if_neg block.header_ne_zero
    rw [first, map_cons]
    refine .link ?_
    rw [linkOf, next]
    exact others.linked
  · obtain ⟨mapBase, mapSize, requestedSize, magic⟩ := others.headers other member
    exact ⟨mapBase, mapSize, requestedSize, magic⟩
  · rw [map_cons, ← holds.mappings]
    rfl

/-! ### A block that leaves -/

/-- The link behind some headers. -/
def linkBehind (current : ListLink) : List UInt64 → ListLink
  | [] => current
  | header :: later => linkBehind (.next header) later

theorem linkBehind_concat (current : ListLink) (headers : List UInt64) (last : UInt64) :
    linkBehind current (headers ++ [last]) = .next last := by
  induction headers generalizing current with
  | nil => rfl
  | cons header later ih => exact ih _

/-- The loop finds the link that leads to a header of the list. -/
theorem findLink_eq {front back : List UInt64} {header : UInt64} {current : ListLink}
    (linked : Linked (linkOf heap) (toLink (heap.load current)) (front ++ header :: back)) {fuel : Nat}
    (enough : front.length < fuel) :
    findLink heap header fuel current = some (linkBehind current front) ∧
      heap.load (linkBehind current front) = header := by
  induction front generalizing current fuel with
  | nil =>
      obtain ⟨fuel, rfl⟩ := Nat.exists_eq_succ_of_ne_zero (Nat.ne_of_gt enough)
      obtain ⟨nonzero, here⟩ : heap.load current ≠ 0 ∧ heap.load current = header := by
        simpa [toLink] using linked.head_eq
      rw [findLink, here]
      simp [linkBehind, here]
  | cons first later ih =>
      obtain ⟨fuel, rfl⟩ := Nat.exists_eq_succ_of_ne_zero (Nat.ne_of_gt (Nat.zero_lt_of_lt enough))
      obtain ⟨nonzero, here⟩ : heap.load current ≠ 0 ∧ heap.load current = first := by
        simpa [toLink] using linked.head_eq
      have other : first ≠ header := by
        intro same
        have distinct := (nodup_cons.1 linked.nodup).1
        exact distinct (mem_append_right _ (same ▸ mem_cons_self))
      have goesOn : (heap.load current != 0 && heap.load current != header) = true := by
        simp [here, other, here ▸ nonzero]
      have tail : Linked (linkOf heap) (toLink (heap.load (.next first)))
        (later ++ header :: back) := linked.tail
      rw [findLink, if_pos goesOn, here]
      exact ih tail (Nat.lt_of_succ_lt_succ enough)

variable {front back : List Block} {block : Block}

/-- The other blocks of a list. -/
theorem apart_others (apart : (front ++ block :: back).Pairwise Block.Apart) :
    ∀ other ∈ front ++ back, other.Apart block := by
  obtain ⟨_, behind, across⟩ := pairwise_append.1 apart
  intro other member
  rcases mem_append.1 member with before | after
  · exact across other before block mem_cons_self
  · exact ((pairwise_cons.1 behind).1 other after).symm

/-- Two blocks of a list. -/
theorem eq_or_apart (apart : blocks.Pairwise Block.Apart) {one two : Block} (memberOne : one ∈ blocks)
    (memberTwo : two ∈ blocks) : one = two ∨ one.Apart two := by
  obtain ⟨front, back, rfl⟩ := append_of_mem memberTwo
  rcases mem_append.1 memberOne with early | late
  · exact .inr (apart_others apart one (mem_append_left _ early))
  · rcases mem_cons.1 late with here | late
    · exact .inl here
    · exact .inr (apart_others apart one (mem_append_right _ late))

/-- Writing the link of a header leaves the other fields of all headers as they are. -/
theorem setNext_headers {before : Block} (holds : HeaderHolds heap block)
    (related : block = before ∨ block.Apart before) (value : UInt64) :
    HeaderHolds (heap.store value (.next before.header)) block := by
  rcases related with rfl | apart
  · have sum := block.toNat_header
    have bound := block.pointer.toNat_lt
    obtain ⟨eight, sixteen, twentyFour, thirtyTwo⟩ := block.toNat_fields
    have field (address : UInt64) (inside : address.toNat + 8 ≤ block.header.toNat + 32) :
        (heap.memory.setWord (block.header + 32) value).word address = heap.memory.word address :=
      ByteMemory.word_setWord_of_apart (by omega) (by omega) (by omega)
    exact ⟨(field block.header (by omega)).trans holds.mapBase,
      (field (block.header + 8) (by omega)).trans holds.mapSize,
      (field (block.header + 16) (by omega)).trans holds.requestedSize,
      (field (block.header + 24) (by omega)).trans holds.magic⟩
  · exact (holds.congr (before.agreeOn_setField (fun _ _ _ => rfl)
      (apart.outside_header block.map_le_header block.header_le) 32 (by decide) value)).1

section

variable (holds : HeapHolds heap (front ++ block :: back))
include holds

/-- Replacing the link that leads to a block takes it off the list, and leaves all but links as it is. -/
theorem unlink : let heap' := heap.store (heap.next block.header) (linkBehind .list (front.map Block.header))
    Linked (linkOf heap') (toLink heap'.list) ((front ++ back).map Block.header) ∧
      (∀ other ∈ front ++ block :: back, HeaderHolds heap' other) ∧ heap'.mappings = heap.mappings ∧
      ∀ other ∈ front ++ block :: back,
        ByteMemory.AgreeOn other.pointer.toNat (other.map.toNat + other.mapSize.toNat) heap.memory
          heap'.memory := by
  rcases eq_nil_or_concat' front with rfl | ⟨first, before, rfl⟩
  · refine ⟨?_, fun other member => ?_, rfl, fun other _ _ _ _ => rfl⟩
    · exact holds.linked.tail
    · obtain ⟨mapBase, mapSize, requestedSize, magic⟩ := holds.headers other member
      exact ⟨mapBase, mapSize, requestedSize, magic⟩
  · -- the link is a field of the block before it
    have behind : linkBehind .list ((first ++ [before]).map Block.header) = .next before.header := by
      rw [map_append]
      exact linkBehind_concat _ _ _
    have split : first ++ [before] ++ block :: back = first ++ before :: block :: back := by simp
    rw [split] at holds ⊢
    rw [behind]
    have others := apart_others holds.apart
    have related : ∀ other ∈ first ++ before :: block :: back, other = before ∨ other.Apart before :=
      fun other member => eq_or_apart holds.apart member (mem_append_right _ mem_cons_self)
    refine ⟨?_, fun other member => setNext_headers (holds.headers other member)
      (related other member) _, rfl,
      fun other member => ?_⟩
    · have linked := holds.linked
      rw [map_append, map_cons, map_cons] at linked
      have same : ∀ header ∈ first.map Block.header ++ back.map Block.header,
          linkOf (heap.store (heap.next block.header) (.next before.header)) header =
            linkOf heap header := by
        intro header member
        rw [← map_append] at member
        obtain ⟨other, there, rfl⟩ := mem_map.1 member
        have listed : other ∈ first ++ block :: back :=
          ((sublist_cons_self block back).append_left first).subset there
        have apart := others other listed
        have holdsOther := holds.headers other (((sublist_cons_self before _).append_left
          first).subset listed)
        exact (holdsOther.congr (before.agreeOn_setField (fun _ _ _ => rfl)
          (apart.outside_header other.map_le_header other.header_le) 32 (by decide) _)).2
      have replaced : linkOf (heap.store (heap.next block.header) (.next before.header)) before.header =
          linkOf heap block.header := congrArg toLink ByteMemory.word_setWord
      have remaining : (first ++ [before] ++ back).map Block.header =
          first.map Block.header ++ before.header :: back.map Block.header := by simp
      rw [remaining]
      exact linked.unlink replaced same
    · refine before.agreeOn_setField (fun _ _ _ => rfl) ?_ 32 (by decide) _
      rcases related other member with rfl | apart
      · have sum := other.toNat_header
        omega
      · exact apart.outside_header (by have := other.header_in; omega) (Nat.le_refl _)

/-- `releaseBlock` with the link that leads to the block. -/
theorem releaseBlock_eq (leads : heap.load (linkBehind .list (front.map Block.header)) = block.header) :
    releaseBlock heap block.header (linkBehind .list (front.map Block.header)) =
      { heap.store (heap.next block.header) (linkBehind .list (front.map Block.header)) with
        memory := (heap.store (heap.next block.header)
        (linkBehind .list (front.map Block.header))).memory.setWord (block.header + 24) 0
        mappings := heap.mappings.erase (block.map, block.mapSize) } := by
  have listed : block ∈ front ++ block :: back := mem_append_right _ mem_cons_self
  obtain ⟨_, headers, mappings, _⟩ := holds.unlink
  obtain ⟨mapBase, mapSize, _, _⟩ := headers block listed
  unfold releaseBlock
  rw [if_pos leads]
  generalize heap.store (heap.next block.header) (linkBehind .list (front.map Block.header)) = rest at *
  have base : (rest.memory.setWord (block.header + 24) 0).word block.header = block.map := by
    have bound := block.pointer.toNat_lt
    have sum := block.toNat_header
    have magicAt := block.toNat_fields.2.2.1
    rw [ByteMemory.word_setWord_of_apart (by omega) (by omega) (by omega)]
    exact mapBase
  dsimp only
  rw [mapSize, mappings, BootstrapHeap.mapBase, base]

/-- The mapping of the block is the only one of its kind. -/
theorem mappings_erase :
    heap.mappings.erase (block.map, block.mapSize) = (front ++ back).map fun block =>
    (block.map, block.mapSize) := by
  have absent : (block.map, block.mapSize) ∉ front.map fun block => (block.map, block.mapSize) := by
    intro member
    obtain ⟨other, early, same⟩ := mem_map.1 member
    obtain ⟨sameMap, sameSize⟩ := Prod.mk.inj same
    have apart := apart_others holds.apart other (mem_append_left _ early)
    have header := block.header_in
    have payload := block.payload_in
    unfold Block.Apart at apart
    rw [sameMap, sameSize] at apart
    omega
  rw [holds.mappings, map_append, map_cons, erase_append_right _ absent, erase_cons_head, map_append]

/-- `BootstrapFree` of a block on the list: the block leaves, and the payloads of the others are left
alone. -/
theorem free :
    ∃ heap', bootstrapFree block.pointer heap = some heap' ∧ HeapHolds heap' (front ++ back) ∧
      ∀ other ∈ front ++ back,
        ByteMemory.AgreeOn other.pointer.toNat (other.map.toNat + other.mapSize.toNat) heap.memory
        heap'.memory := by
  have listed : block ∈ front ++ block :: back := mem_append_right _ mem_cons_self
  have remains {other : Block} (member : other ∈ front ++ back) : other ∈ front ++ block :: back :=
    ((sublist_cons_self block back).append_left front).subset member
  have known : isBootstrapPointer heap block.pointer = some true := by
    rw [holds.isBootstrapPointer_eq, decide_eq_true (mem_map_of_mem listed)]
  have linked := holds.linked
  rw [map_append, map_cons] at linked
  have few : (front.map Block.header).length < kListFuel := by
    have all := holds.length_lt
    rw [length_append] at all
    rw [length_map]
    omega
  obtain ⟨found, leads⟩ := findLink_eq (show Linked (linkOf heap) (toLink (heap.load .list))
    _ from linked) few
  obtain ⟨unlinked, headers, mappings, payloads⟩ := holds.unlink
  have others := apart_others holds.apart
  have released := holds.releaseBlock_eq leads
  have freed : bootstrapFree block.pointer heap =
      some (releaseBlock heap block.header (linkBehind .list (front.map Block.header))) := by
    rw [bootstrapFree, known, Option.bind_some]
    exact congrArg (Option.map _) found
  rw [released] at freed
  refine ⟨_, freed, ?_, fun other member => ?_⟩
  · have unmarked : HeapHolds { heap.store (heap.next block.header)
      (linkBehind .list (front.map Block.header)) with
        mappings := heap.mappings.erase (block.map, block.mapSize) } (front ++ back) := by
      refine ⟨unlinked, fun other member => ?_, holds.apart.sublist
        ((sublist_cons_self block back).append_left front),
        holds.mappings_erase⟩
      obtain ⟨mapBase, mapSize, requestedSize, magic⟩ := headers other (remains member)
      exact ⟨mapBase, mapSize, requestedSize, magic⟩
    refine unmarked.congr fun other member => ?_
    exact block.agreeOn_setField (fun _ _ _ => rfl)
      ((others other member).outside_header other.map_le_header other.header_le) 24 (by decide) 0
  · refine block.agreeOn_setField (payloads other (remains member)) ?_ 24 (by decide) 0
    exact (others other member).outside_header (by have := other.header_in; omega) (Nat.le_refl _)

end

/-- `BootstrapFree` of any other pointer does nothing. -/
theorem free_other (holds : HeapHolds heap blocks) {pointer : UInt64}
    (unknown : pointer ∉ blocks.map Block.pointer) : bootstrapFree pointer heap = some heap := by
  rw [bootstrapFree, holds.isBootstrapPointer_eq, decide_eq_false unknown]
  rfl

/-! ### The calls -/

variable {answer : Option UInt64}

/-- `BootstrapAlignedMalloc` fails and changes nothing, or adds a block. -/
theorem alignedMalloc_cases (holds : HeapHolds heap blocks) {pageSize : Int64} {alignment size : UInt64}
    (may : mayAnswer pageSize heap.mappings alignment size answer) :
    ((bootstrapAlignedMalloc pageSize alignment size answer heap).pointer = 0 ∧
        (bootstrapAlignedMalloc pageSize alignment size answer heap).heap = heap) ∨
      ∃ block : Block, block.size = size ∧ (∀ other ∈ blocks, block.Apart other) ∧
        (bootstrapAlignedMalloc pageSize alignment size answer heap).pointer = block.pointer ∧
        (bootstrapAlignedMalloc pageSize alignment size answer heap).heap =
          heap.push block.header block.map block.mapSize block.size := by
  unfold bootstrapAlignedMalloc
  cases computed : bootstrapMapSize pageSize alignment size with
  | error errno => exact .inl ⟨rfl, rfl⟩
  | ok mapSize =>
      cases answer with
      | none => exact .inl ⟨rfl, rfl⟩
      | some map =>
          right
          have allowed : mayMap heap.mappings map mapSize = true := by simpa [mayAnswer, computed] using may
          simp only [mayMap, Bool.and_eq_true, bne_iff_ne, decide_eq_true_eq, all_eq_true] at allowed
          obtain ⟨⟨nonzero, fits⟩, free⟩ := allowed
          obtain ⟨placed, _, above, below⟩ := payloadAt_inside computed fits.le
          have pointer : (placedPayload map alignment).toNat = payloadAt map alignment := by
            rw [placed, UInt64.toNat_ofNat', Nat.mod_eq_of_lt (by omega)]
          let block : Block :=
            { map := map, mapSize := mapSize, size := size, pointer := placedPayload map alignment,
              mapped := nonzero,
              header_in := by omega, payload_in := by omega, fits := fits }
          refine ⟨block, rfl, fun other member => ?_, UInt64.sub_add_cancel _ _, rfl⟩
          have mapped : (other.map, other.mapSize) ∈ heap.mappings := by
            rw [holds.mappings]
            exact mem_map_of_mem member
          exact free _ mapped

/-- Stores in the payload of a block change no header. -/
theorem writePayload (holds : HeapHolds heap blocks) (listed : block ∈ blocks) {memory : ByteMemory}
    {length : Nat} (writes : ByteMemory.WritesOnly block.pointer length heap.memory memory)
    (inside : length ≤ block.size.toNat) : HeapHolds { heap with memory := memory } blocks := by
  refine holds.congr fun other member => writes.agreeOn ?_ ?_
  · have := block.payload_in
    have := block.fits
    omega
  · rcases eq_or_apart holds.apart member listed with rfl | apart
    · have := other.toNat_header
      omega
    · have := other.map_le_header
      have := other.header_le
      have := block.header_in
      have := block.payload_in
      unfold Block.Apart at apart
      omega

/-- `BootstrapCalloc` fails and changes nothing, or adds a block. -/
theorem calloc_cases (holds : HeapHolds heap blocks) {pageSize : Int64} {nmemb size : UInt64}
    (may : mayAnswer pageSize heap.mappings kMaxAlign (nmemb * size) answer) :
    ((bootstrapCalloc pageSize nmemb size answer heap).pointer = 0 ∧
        (bootstrapCalloc pageSize nmemb size answer heap).heap = heap) ∨
      ∃ block : Block, block.size = nmemb * size ∧
      (bootstrapCalloc pageSize nmemb size answer heap).pointer = block.pointer ∧
        HeapHolds (bootstrapCalloc pageSize nmemb size answer heap).heap (block :: blocks) := by
  unfold bootstrapCalloc
  split_ifs with overflow
  · exact .inl ⟨rfl, rfl⟩
  · obtain ⟨failed, unchanged⟩ | ⟨block, isSize, apart, pointer, pushed⟩ := holds.alignedMalloc_cases may
    · left
      simp [bootstrapMalloc, failed, unchanged]
    · right
      refine ⟨block, isSize, ?_⟩
      have nonnull : (bootstrapMalloc pageSize (nmemb * size) answer heap).pointer ≠ 0 :=
        pointer ▸ block.pointer_ne_zero
      dsimp only
      rw [if_pos (by simpa using nonnull)]
      refine ⟨pointer, ?_⟩
      rw [show (bootstrapMalloc pageSize (nmemb * size) answer heap).pointer = block.pointer from pointer,
        show (bootstrapMalloc pageSize (nmemb * size) answer heap).heap = _ from pushed]
      exact (holds.push apart).writePayload mem_cons_self (ByteMemory.fill_writesOnly _ _ _ _)
        (Nat.le_of_eq (congrArg UInt64.toNat isSize.symm))

/-- The new block after a copy from an old one that is then freed. -/
theorem copy_free {old : Block} (holds : HeapHolds heap (front ++ old :: back)) (new : Block)
    (apart : ∀ other ∈ front ++ old :: back, new.Apart other) :
    let pushed := heap.push new.header new.map new.mapSize new.size
    let length := min old.size.toNat new.size.toNat
    ∃ heap', bootstrapFree old.pointer
        { pushed with memory := pushed.memory.copy new.pointer old.pointer length } =
        some heap' ∧
      HeapHolds heap' (new :: (front ++ back)) ∧
      ∀ offset : UInt64, offset.toNat < length →
        heap'.memory (new.pointer + offset) = heap.memory (old.pointer + offset) := by
  intro pushed length
  have listed : old ∈ front ++ old :: back := mem_append_right _ mem_cons_self
  have copied : HeapHolds { pushed with memory := pushed.memory.copy new.pointer old.pointer length }
      ((new :: front) ++ old :: back) :=
    (holds.push apart).writePayload mem_cons_self (ByteMemory.copy_writesOnly _ _ _ _) (Nat.min_le_right _ _)
  obtain ⟨heap', freed, holds', payloads⟩ := copied.free
  refine ⟨heap', freed, holds', fun offset small => ?_⟩
  have newIn := new.payload_in
  have newFits := new.fits
  have oldIn := old.payload_in
  have oldFits := old.fits
  have newAt : (new.pointer + offset).toNat = new.pointer.toNat + offset.toNat :=
    ByteMemory.toNat_add (by omega)
  have oldAt : (old.pointer + offset).toNat = old.pointer.toNat + offset.toNat :=
    ByteMemory.toNat_add (by omega)
  calc heap'.memory (new.pointer + offset)
      = pushed.memory.copy new.pointer old.pointer length (new.pointer + offset) :=
        payloads new mem_cons_self _ (by omega) (by omega)
    _ = pushed.memory (old.pointer + offset) := ByteMemory.copy_apply small
    _ = heap.memory (old.pointer + offset) :=
        push_agreeOn heap new ((apart old listed).symm.outside_header (Nat.le_refl _) (Nat.le_refl _)) _
          (by have := old.header_in; omega) (by omega)

/-- `BootstrapRealloc` of a pointer to some bytes fails and changes nothing, or adds a block; a block
without bytes then stays, any other is freed after its bytes have been copied. -/
theorem realloc_cases (holds : HeapHolds heap blocks) {pageSize : Int64} {old size : UInt64}
    (may : mayAnswer pageSize heap.mappings kMaxAlign size answer) (nonnull : old ≠ 0)
    (nonempty : size ≠ 0) :
    ∃ returned, bootstrapRealloc pageSize old size answer heap = some returned ∧
      returned.pointer = (bootstrapMalloc pageSize size answer heap).pointer ∧
      (returned.pointer = 0 ∧ returned.heap = heap ∨
        ∃ new : Block, new.size = size ∧ returned.pointer = new.pointer ∧
        (∀ other ∈ blocks, new.Apart other) ∧
          ((∀ block ∈ blocks, block.pointer = old → block.size = 0) ∧
          HeapHolds returned.heap (new :: blocks) ∨
            ∃ front block back, blocks = front ++ block :: back ∧ block.pointer = old ∧ block.size ≠ 0 ∧
              HeapHolds returned.heap (new :: (front ++ back)) ∧
              ∀ offset : UInt64, offset.toNat < min block.size.toNat size.toNat →
                returned.heap.memory (new.pointer + offset) = heap.memory (old + offset))) := by
  rw [bootstrapRealloc, if_neg nonnull, if_neg nonempty, holds.isBootstrapPointer_eq old, Option.bind_some]
  obtain ⟨failed, unchanged⟩ | ⟨new, isSize, apart, pointer, pushed⟩ := holds.alignedMalloc_cases may
  · refine ⟨bootstrapMalloc pageSize size answer heap, ?_, rfl, .inl ⟨failed, unchanged⟩⟩
    simp [show (bootstrapMalloc pageSize size answer heap).pointer = 0 from failed]
  · have isPointer : (bootstrapMalloc pageSize size answer heap).pointer = new.pointer := pointer
    have isHeap : (bootstrapMalloc pageSize size answer heap).heap = heap.push new.header new.map
      new.mapSize new.size :=
      pushed
    by_cases listed : old ∈ blocks.map Block.pointer
    · obtain ⟨block, member, rfl⟩ := mem_map.1 listed
      have oldSize : heap.requestedSize (block.pointer - kHeaderBytes) = block.size :=
        (holds.headers block member).requestedSize
      by_cases empty : block.size = 0
      · refine ⟨bootstrapMalloc pageSize size answer heap, ?_, rfl,
          .inr ⟨new, isSize, pointer, apart, .inl ⟨fun other there same => ?_, ?_⟩⟩⟩
        · simp [listed, oldSize, empty]
        · rcases eq_or_apart holds.apart there member with rfl | apart
          · exact empty
          · exact absurd same apart.pointer_ne
        · rw [isHeap]
          exact holds.push apart
      · obtain ⟨front, back, rfl⟩ := append_of_mem member
        obtain ⟨heap', freed, holds', bytes⟩ := holds.copy_free new apart
        rw [isSize] at freed bytes
        refine ⟨{ bootstrapMalloc pageSize size answer heap with heap := heap' }, ?_, rfl,
          .inr ⟨new, isSize, pointer, apart, .inr ⟨front, block, back, rfl, rfl, empty, holds', bytes⟩⟩⟩
        simp only [listed, decide_true, if_true, oldSize, isPointer, isHeap, isSize,
          bne_iff_ne, ne_eq, empty,
          new.pointer_ne_zero, not_false_iff, freed, Bool.and_eq_true, and_self]
        rfl
    · refine ⟨bootstrapMalloc pageSize size answer heap, ?_, rfl,
        .inr ⟨new, isSize, pointer, apart, .inl ⟨fun other there same => ?_, ?_⟩⟩⟩
      · simp [listed]
      · exact absurd (mem_map.2 ⟨other, there, same⟩) listed
      · rw [isHeap]
        exact holds.push apart

end HeapHolds

end MallocHook
