/-
Module: MallocHook.Proofs.StripAnalysis
Purpose: Stripping is invisible to `analyze_trace`: the metadata of a stripped trace is that of the
  trace.
Trusted boundary: none
Main exports: analyzeTrace_strip, covered_strip
-/
import MallocHook.Proofs.OverlayMerge
import MallocHook.Proofs.StripRefinement

namespace MallocHook

open WireFormat List
open Option (bind_eq_some_iff bind_some getD_some map_eq_some_iff)

/-! ### What stripping does -/

section

variable {zlib : Zlib} {strip : Bytes → Option (Bytes × Nat)} {dropped : Nat}

/-- A field is copied, is a bundle, or is a blob that is deflated again. -/
theorem stripField_inv {field field' : WireField}
    (stripped : stripField zlib strip field = some (field', dropped)) :
    field' = field ∨
    (∃ payload payload', field = ⟨ftraceBundleField, .len payload⟩ ∧
      field' = ⟨ftraceBundleField, .len payload'⟩) ∨
    ∃ payload inner framing newInner, field = ⟨compressedPacketsField, .len payload⟩ ∧
      inflate zlib payload = some (inner, framing) ∧ strip inner = some (newInner, dropped) ∧
      field' = ⟨compressedPacketsField, .len (zlib.deflate framing newInner)⟩ := by
  unfold stripField at stripped
  split at stripped
  · next _ payload bundle =>
      obtain ⟨⟨kept, count⟩, _, ⟨⟩⟩ := map_eq_some_iff.1 stripped
      exact .inr (.inl ⟨payload, kept, lenOf_eq_some_iff.1 bundle, rfl⟩)
  · next payload _ blob =>
      obtain ⟨⟨newPayload, count⟩, strippedBlob, ⟨⟩⟩ := map_eq_some_iff.1 stripped
      obtain ⟨⟨inner, framing⟩, inflated, strippedInner⟩ := bind_eq_some_iff.1 strippedBlob
      obtain ⟨⟨newInner, count'⟩, strips, ⟨⟩⟩ := map_eq_some_iff.1 strippedInner
      have isBlob := lenOf_eq_some_iff.1 blob
      by_cases noDrop : dropped = 0
      · left
        rw [if_pos noDrop, isBlob]
      · rw [if_neg noDrop]
        exact .inr (.inr ⟨payload, inner, framing, newInner, isBlob, inflated, strips, rfl⟩)
  · cases stripped
    exact .inl rfl

theorem stripField_complete {field : WireField} {part : WireField × Nat}
    (stripped : stripField zlib strip field = some part) : part.1 = field ∨ part.1.value.Complete := by
  obtain ⟨field', dropped⟩ := part
  rcases stripField_inv stripped with same | ⟨_, _, _, rfl⟩ | ⟨_, _, _, _, _, _, _, rfl⟩
  · exact .inl same
  · exact .inr trivial
  · exact .inr trivial

/-- A packet is returned as it is, or with all its fields stripped. -/
theorem stripPacket_inv {packet newPacket : Bytes}
    (stripped : stripPacket zlib strip packet = some (newPacket, dropped)) :
    newPacket = packet ∨ ∃ fields parts, iterFields packet = some fields ∧
      List.Forall₂ (fun field part => stripField zlib strip field = some part) fields parts ∧
      iterFields newPacket = some (parts.map Prod.fst) := by
  obtain ⟨fields, all, stripped⟩ := bind_eq_some_iff.1 stripped
  obtain ⟨parts, strips, same⟩ := map_eq_some_iff.1 stripped
  dsimp only at same
  split at same <;> cases same
  · exact .inl rfl
  · right
    obtain ⟨items, rfl, rfl, framed⟩ := framed_of_readAll isReader_readField all
    have each := mapM_eq_some_iff_forall₂.1 strips
    have again := iterFields_of_framed (framed_encode framed (forall₂_map_right_iff.2
      ((forall₂_map_left_iff.1 each).imp fun _ _ => stripField_complete)))
    rw [map_map] at again
    exact ⟨_, parts, all, each, again⟩

/-- An entry is copied, or written anew around a stripped packet. -/
theorem stripEntry_inv {entry : Bytes × Bytes} {root : Bytes}
    (stripped : stripEntry zlib strip entry = some (root, dropped)) :
    ∃ entry', entry'.1 = root ∧ (entry' = entry ∨ Delimits readPacket entry' ∧
      ∃ count, stripPacket zlib strip entry.2 = some (entry'.2, count)) := by
  unfold stripEntry at stripped
  split at stripped
  · cases stripped
    exact ⟨entry, rfl, .inl rfl⟩
  · obtain ⟨⟨newPacket, count⟩, strips, same⟩ := map_eq_some_iff.1 stripped
    dsimp only at same
    split at same <;> cases same
    · exact ⟨entry, rfl, .inl rfl⟩
    · exact ⟨(encodeLenField 1 newPacket, newPacket), rfl, .inr ⟨packet_delimits newPacket, _, strips⟩⟩

end

/-! ### The scan -/

/-- The scan cannot tell what was stripped. -/
def ScanKept (strip : Bytes → Option (Bytes × Nat)) (scan : Bytes → ScanState → Option ScanState) : Prop :=
  ∀ bytes out dropped, strip bytes = some (out, dropped) → ∀ state, scan out state = scan bytes state

section

variable {zlib : Zlib} {strip : Bytes → Option (Bytes × Nat)} {scan : Bytes → ScanState → Option ScanState}
  (nested : ScanKept strip scan)

@[simp] theorem decompressPackets_deflate (framing : Framing) (payload : Bytes) :
    decompressPackets zlib (zlib.deflate framing payload) = some payload := by
  cases framing with
  | zlib => simp [decompressPackets, zlib.decompress_deflate]
  | raw => simp [decompressPackets, zlib.decompress_deflate, zlib.raw_is_not_zlib]

theorem decompressPackets_of_inflate {payload inner : Bytes} {framing : Framing}
    (inflated : inflate zlib payload = some (inner, framing)) :
    decompressPackets zlib payload = some inner := by
  unfold inflate at inflated
  unfold decompressPackets
  cases zlibFraming : zlib.decompress .zlib payload with
  | some data =>
      rw [zlibFraming] at inflated
      cases inflated
      rfl
  | none =>
      rw [zlibFraming] at inflated
      obtain ⟨data, rawFraming, ⟨⟩⟩ := map_eq_some_iff.1 inflated
      exact rawFraming

include nested in
theorem scanField_strip {field : WireField} {part : WireField × Nat}
    (stripped : stripField zlib strip field = some part) (state : ScanState)
    (snapshot : Option ClockSnapshot) :
    scanField zlib scan state snapshot part.1 = scanField zlib scan state snapshot field := by
  obtain ⟨field', dropped⟩ := part
  rcases stripField_inv stripped with
    same | ⟨_, _, same, same'⟩ | ⟨payload, inner, framing, newInner, same, inflated, strips, same'⟩
  · rw [same]
  · rw [same, same']
    rfl
  · rw [same, same']
    change (decompressPackets zlib _).bind _ = (decompressPackets zlib payload).bind _
    rw [decompressPackets_deflate, decompressPackets_of_inflate inflated]
    simp only [bind_some, nested inner newInner _ strips]

include nested in
theorem scanFields_strip {fields : List WireField} {parts : List (WireField × Nat)}
    (stripped : List.Forall₂ (fun field part => stripField zlib strip field = some part) fields parts)
    (scanned : ScanState × Option ClockSnapshot) :
    scanFields zlib scan (parts.map Prod.fst) scanned = scanFields zlib scan fields scanned := by
  induction stripped generalizing scanned with
  | nil => rfl
  | cons here later ih =>
      simp only [scanFields, map_cons, foldlM_cons, scanField_strip nested here]
      congr 1
      funext scanned
      exact ih scanned

include nested in
theorem scanTracePacket_strip {packet newPacket : Bytes} {dropped : Nat}
    (stripped : stripPacket zlib strip packet = some (newPacket, dropped)) (state : ScanState) :
    scanTracePacket zlib scan newPacket state = scanTracePacket zlib scan packet state := by
  rcases stripPacket_inv stripped with rfl | ⟨fields, parts, all, each, again⟩
  · rfl
  · rw [scanTracePacket, scanTracePacket, all, again]
    simp only [bind_some, scanFields_strip nested each]

end

/-- What is put in the place of an entry. -/
def StripsTo (zlib : Zlib) (strip : Bytes → Option (Bytes × Nat)) (entry entry' : Bytes × Bytes) : Prop :=
  entry' = entry ∨ Delimits readPacket entry' ∧ ∃ count, stripPacket zlib strip entry.2 =
    some (entry'.2, count)

variable {zlib : Zlib}

theorem stripEntries_inv {strip : Bytes → Option (Bytes × Nat)} {entries : List (Bytes × Bytes)}
    {parts : List (Bytes × Nat)}
    (stripped : List.Forall₂ (fun entry part => stripEntry zlib strip entry = some part) entries parts) :
    ∃ entries' : List (Bytes × Bytes), entries'.map Prod.fst = parts.map Prod.fst ∧
      List.Forall₂ (StripsTo zlib strip) entries entries' := by
  induction stripped with
  | nil => exact ⟨[], rfl, .nil⟩
  | @cons _ part _ _ here later ih =>
      obtain ⟨root, dropped⟩ := part
      obtain ⟨entry', same, strips⟩ := stripEntry_inv here
      obtain ⟨rest', sameRest, stripsRest⟩ := ih
      exact ⟨entry' :: rest', by simp [same, sameRest], .cons strips stripsRest⟩

variable {depth dropped : Nat} {trace out : Bytes}

/-- The entries of a stripped trace. -/
theorem strip_entries (stripped : stripAllocMarkers zlib (depth + 1) trace = some (out, dropped)) :
    ∃ entries entries', iterTracePacketEntries trace = some entries ∧
    iterTracePacketEntries out = some entries' ∧
      List.Forall₂ (StripsTo zlib (stripAllocMarkers zlib depth)) entries entries' := by
  obtain ⟨entries, all, stripped⟩ := bind_eq_some_iff.1 stripped
  obtain ⟨parts, each, ⟨⟩⟩ := map_eq_some_iff.1 stripped
  obtain ⟨rfl, framed, _⟩ := readAll_withSpan isReader_readPacket all
  obtain ⟨entries', roots, strips⟩ := stripEntries_inv (mapM_eq_some_iff_forall₂.1 each)
  have framed' : Framed readPacket entries' := by
    refine framed.replace (strips.imp fun entry entry' given => ?_)
    rcases given with rfl | ⟨delimits, _⟩
    · exact ⟨id, id⟩
    · exact ⟨fun _ => delimits, fun _ => delimits.ends⟩
  refine ⟨entries, entries', all, ?_, strips⟩
  rw [← roots]
  exact readAll_withSpan_of_framed framed'

theorem scanPackets_strip {strip : Bytes → Option (Bytes × Nat)}
    {scan : Bytes → ScanState → Option ScanState} (nested : ScanKept strip scan)
    {entries entries' : List (Bytes × Bytes)}
    (strips : List.Forall₂ (StripsTo zlib strip) entries entries') (state : ScanState) :
    (entries'.map Prod.snd).foldlM (fun state packet => scanTracePacket zlib scan packet state) state =
      (entries.map Prod.snd).foldlM (fun state packet => scanTracePacket zlib scan packet state) state := by
  induction strips generalizing state with
  | nil => rfl
  | @cons entry entry' _ _ here later ih =>
      have same : scanTracePacket zlib scan entry'.2 state = scanTracePacket zlib scan entry.2 state := by
        rcases here with rfl | ⟨_, count, strips⟩
        · rfl
        · exact scanTracePacket_strip nested strips state
      simp only [map_cons, foldlM_cons, same]
      congr 1
      funext state
      exact ih state

/-- A stripped trace has the scan of the trace. -/
theorem scanTrace_strip (zlib : Zlib) (depth : Nat) :
    ScanKept (stripAllocMarkers zlib depth) (scanTrace zlib depth) := by
  induction depth with
  | zero =>
      intro trace out dropped stripped
      cases stripped
  | succ depth nested =>
      intro trace out dropped stripped state
      obtain ⟨entries, entries', all, all', strips⟩ := strip_entries stripped
      obtain ⟨_, _, plain⟩ := readAll_withSpan isReader_readPacket all
      obtain ⟨_, _, plain'⟩ := readAll_withSpan isReader_readPacket all'
      rw [scanTrace, scanTrace, iterTracePackets, iterTracePackets, plain, plain', bind_some, bind_some]
      exact scanPackets_strip nested strips state

/-- The metadata of a stripped trace is that of the trace. -/
theorem analyzeTrace_strip (stripped : stripAllocMarkers zlib depth trace = some (out, dropped)) :
    analyzeTrace zlib depth out = analyzeTrace zlib depth trace := by
  rw [analyzeTrace, analyzeTrace, scanTrace_strip zlib depth trace out dropped stripped]

/-- The first timestamp of a packet stays. -/
theorem parsePacketTimestamp_strip {strip : Bytes → Option (Bytes × Nat)} {packet newPacket : Bytes}
    (stripped : stripPacket zlib strip packet = some (newPacket, dropped)) :
    parsePacketTimestamp newPacket = parsePacketTimestamp packet := by
  rcases stripPacket_inv stripped with rfl | ⟨fields, parts, all, each, again⟩
  · rfl
  rw [parsePacketTimestamp, parsePacketTimestamp, firstField_eq all, firstField_eq again]
  congr 1
  clear all again
  induction each with
  | nil => rfl
  | @cons field part _ _ here later ih =>
      have same : varintOf 8 part.1 = varintOf 8 field := by
        rcases stripField_inv here with same | ⟨_, _, rfl, same⟩ | ⟨_, _, _, _, rfl, _, _, same⟩
        · rw [same]
        all_goals simp [same, varintOf]
      rw [map_cons, findSome?_cons, findSome?_cons, same, ih]

/-- What is covered stays covered. -/
theorem covered_strip (stripped : stripAllocMarkers zlib depth trace = some (out, dropped))
    {outer : List Bytes} (reads : iterTracePackets trace = some outer) :
    ∃ outer', iterTracePackets out = some outer' ∧
      ∀ timestamps, Covered outer timestamps → Covered outer' timestamps := by
  cases depth with
  | zero => cases stripped
  | succ depth =>
      obtain ⟨entries, entries', all, all', strips⟩ := strip_entries stripped
      obtain ⟨_, _, plain⟩ := readAll_withSpan isReader_readPacket all
      obtain ⟨_, _, plain'⟩ := readAll_withSpan isReader_readPacket all'
      cases reads.symm.trans plain
      refine ⟨_, plain', fun timestamps ⟨packet, member, last, timed, covers⟩ => ?_⟩
      obtain ⟨entry, there, rfl⟩ := mem_map.1 member
      obtain ⟨entry', there', strips⟩ := exists_of_forall₂ strips.flip entry there
      refine ⟨entry'.2, mem_map_of_mem there', last, ?_, covers⟩
      rcases strips with rfl | ⟨_, count, strips⟩
      · exact timed
      · exact (parsePacketTimestamp_strip strips).trans timed

/-- Whole packets stay whole. -/
theorem wholePackets_strip (stripped : stripAllocMarkers zlib depth trace = some (out, dropped))
    (whole : wholePackets trace) : wholePackets out := by
  cases depth with
  | zero => cases stripped
  | succ depth =>
      obtain ⟨entries, entries', all, all', strips⟩ := strip_entries stripped
      rw [wholePackets, all, getD_some, all_eq_true] at whole
      rw [wholePackets, all', getD_some, all_eq_true]
      intro entry' member
      obtain ⟨entry, there, strips⟩ := exists_of_forall₂ strips entry' member
      rcases strips with rfl | ⟨delimits, _⟩
      · exact whole entry' there
      · exact wholeEntry_iff.2 delimits

end MallocHook
