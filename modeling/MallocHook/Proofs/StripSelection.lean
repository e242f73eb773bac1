/-
Module: MallocHook.Proofs.StripSelection
Purpose: Which events are stripped: those with `memory_` in their bytes, and these are the markers
  exactly if no other event has it.
Trusted boundary: none
Main exports: eventsOf, strip_drops_markers_iff, foreign_event_dropped
-/
import MallocHook.Core.TraceMarkers
import MallocHook.Core.TrackOverlay
import MallocHook.Proofs.StripRefinement

namespace MallocHook

open WireFormat List
open Option (any_eq_true bind_eq_some_iff bind_some)

/-! ### Markers -/

/-- The text of a marker: `S` or `F`, a pid, a type, a pointer, a stack, a size and a cookie, and the line
feed of the kernel. -/
def allocMarkerText (input : List Char) : Bool :=
  (do
    let input ← (literal "S|" input).or (literal "F|" input)
    let (_, input) ← runOf Char.isDigit input
    let input ← literal "|memory_" input
    let input ← (literal "host@" input).or ((literal "mmap@" input).or (literal "dma@" input))
    let (_, input) ← runOf (fun c => c ≠ '.' && c ≠ '|') input
    let input ← literal ".h" input
    let (_, input) ← runOf Char.isDigit input
    let input ← literal ".s" input
    let (_, input) ← runOf Char.isDigit input
    let input ← literal "|" input
    let (_, input) ← runOf Char.isDigit input
    pure input).any atEnd

/-- A print event whose text is a marker. -/
def isAllocPrint (event : Bytes) : Bool :=
  ((iterFields event).bind printText).any fun buf => buf.any fun buf => allocMarkerText (latin1 buf)

theorem literal_eq_some {text : String} {input rest : List Char} (found : literal text input = some rest) :
    input = text.toList ++ rest := by
  unfold literal at found
  split at found <;> cases found
  next within => exact prefix_append_drop within

theorem runOf_eq_some {test : Char → Bool} {input run rest : List Char}
    (found : runOf test input = some (run, rest)) : input = run ++ rest := by
  unfold runOf at found
  split at found <;> cases found
  exact takeWhile_append_dropWhile.symm

theorem runOf_append {test : Char → Bool} {run rest : List Char} (nonempty : run ≠ [])
    (inside : ∀ c ∈ run, test c) (outside : ∀ c ∈ rest.head?, test c = false) :
    runOf test (run ++ rest) = some (run, rest) := by
  have stops : rest.takeWhile test = [] ∧ rest.dropWhile test = rest := by
    cases rest with
    | nil => exact ⟨rfl, rfl⟩
    | cons c rest => simp [outside c rfl]
  rw [runOf, takeWhile_append_of_pos inside, dropWhile_append_of_pos inside, stops.1, stops.2, append_nil,
    if_neg nonempty]

theorem phase_literal (phase : SpanPhase) (rest : List Char) :
    (literal "S|" (phaseChar phase :: '|' :: rest)).or (literal "F|" (phaseChar phase :: '|' :: rest)) =
    some rest := by
  cases phase <;> simp [literal, phaseChar]

theorem mtype_literal (type : MemType) (rest : List Char) :
    (literal "host@" (mtype type ++ '@' :: rest)).or ((literal "mmap@" (mtype type ++ '@' :: rest)).or
      (literal "dma@" (mtype type ++ '@' :: rest))) = some rest := by
  cases type <;> simp [literal, mtype]

theorem runOf_toDigits (n : Nat) {rest : List Char} (outside : ∀ c ∈ rest.head?, c.isDigit = false) :
    runOf Char.isDigit (Nat.toDigits 10 n ++ rest) = some (Nat.toDigits 10 n, rest) :=
  runOf_append (Nat.toDigits_ne_nil) (fun _ member => Nat.isDigit_of_mem_toDigits (by decide) (by decide)
    member) outside

/-- Every marker that is written is recognised. -/
theorem allocMarkerText_text (format : PointerFormat) (pid : Nat) (marker : AllocMarker) {tail : List Char}
    (printed : format.print marker.name.pointer ≠ []) (ends : atEnd tail) :
    allocMarkerText (marker.text format pid ++ tail) := by
  have plain : ∀ c ∈ format.print marker.name.pointer, (c ≠ '.' && c ≠ '|') = true := by
    intro c member
    have ⟨noStop, noBar⟩ := format.plain marker.name.pointer
    simp only [ne_eq, decide_not, Bool.and_eq_true, Bool.not_eq_true', decide_eq_false_iff_not]
    exact ⟨fun same => noStop (same ▸ member), fun same => noBar (same ▸ member)⟩
  have tailOutside : ∀ c ∈ tail.head?, c.isDigit = false := by
    rcases Bool.or_eq_true _ _ ▸ ends with empty | lineFeed
    · simp [eq_of_beq empty]
    · simp [eq_of_beq lineFeed]
  have hash (rest : List Char) : literal ".h" ('.' :: 'h' :: rest) = some rest := by simp [literal]
  have size (rest : List Char) : literal ".s" ('.' :: 's' :: rest) = some rest := by simp [literal]
  have bar (rest : List Char) : literal "|" ('|' :: rest) = some rest := by simp [literal]
  unfold allocMarkerText AllocMarker.text AllocName.text
  simp only [cons_append, append_assoc, phase_literal, Option.bind_eq_bind, bind_some]
  rw [runOf_toDigits pid (by simp)]
  simp only [literal_append, mtype_literal, bind_some]
  rw [runOf_append printed plain (by simp)]
  simp only [hash, bind_some]
  rw [runOf_toDigits marker.name.hashIndex (by simp)]
  simp only [size, bind_some]
  rw [runOf_toDigits marker.name.size (by simp)]
  simp only [bar, bind_some]
  rw [runOf_toDigits marker.name.pointer.toNat tailOutside]
  exact ends

theorem allocMarkerText_text_glibc :
    allocMarkerText (AllocMarker.text .glibc 7 ⟨.begins, ⟨4096, 3, .dma, 64⟩, 0⟩ ++ ['\n']) :=
  allocMarkerText_text .glibc 7 _ (by decide) (by decide)

/-- A text that is recognised mentions `memory_`. -/
theorem memory_infix_of_allocMarkerText {input : List Char} (marked : allocMarkerText input) :
    "memory_".toList <:+: input := by
  obtain ⟨_, found, _⟩ := (any_eq_true _ _).1 marked
  obtain ⟨afterPhase, phaseFound, found⟩ := bind_eq_some_iff.1 found
  obtain ⟨⟨pid, afterPid⟩, pidRun, found⟩ := bind_eq_some_iff.1 found
  obtain ⟨afterTag, tag, _⟩ := bind_eq_some_iff.1 found
  have begins : ∃ phase, input = phase ++ afterPhase := by
    rcases Option.or_eq_some_iff.1 phaseFound with begins | ⟨_, ends⟩
    · exact ⟨_, literal_eq_some begins⟩
    · exact ⟨_, literal_eq_some ends⟩
  obtain ⟨phase, rfl⟩ := begins
  obtain rfl := runOf_eq_some pidRun
  obtain rfl := literal_eq_some tag
  exact ⟨phase ++ pid ++ ['|'], afterTag, by simp⟩

theorem latin1_injective : Function.Injective latin1 := by
  refine map_injective_iff.2 fun one two same => ?_
  have small (byte : UInt8) : (Char.ofNat byte.toNat).toNat = byte.toNat := by
    have valid : byte.toNat.isValidChar := .inl (byte.toNat_lt.trans (by decide))
    rw [Char.ofNat, dif_pos valid]
    rfl
  have same := congrArg Char.toNat same
  rw [small, small] at same
  exact UInt8.toNat_inj.1 same

theorem latin1_within {one two : Bytes} (within : latin1 one <:+: latin1 two) : one <:+: two := by
  obtain ⟨before, after, same⟩ := within
  obtain ⟨front, back, rfl, front_eq, _⟩ := map_eq_append_iff.1 same.symm
  obtain ⟨before', middle, rfl, _, middle_eq⟩ := map_eq_append_iff.1 front_eq
  rw [latin1_injective middle_eq]
  exact ⟨before', back, rfl⟩

/-- A marker event has `memory_` in its bytes. -/
theorem allocMarkerTag_within {event : Bytes} (marked : isAllocPrint event) : allocMarkerTag <:+: event := by
  obtain ⟨buf, found, text⟩ := (any_eq_true _ _).1 marked
  obtain ⟨buf, rfl, text⟩ := (any_eq_true _ _).1 text
  obtain ⟨fields, all, found⟩ := bind_eq_some_iff.1 found
  obtain ⟨bufs, allBufs, last⟩ := Option.map_eq_some_iff.1 found
  obtain ⟨part, there, inside⟩ := mem_flatten.1 (mem_of_getLast? last)
  obtain ⟨field, member, foundPart⟩ := exists_of_forall₂ (mapM_eq_some_iff_forall₂.1 allBufs) part there
  have within : buf <:+: event := by
    cases print : lenOf ftracePrintField field with
    | none =>
        rw [print] at foundPart
        cases foundPart
        cases inside
    | some payload =>
        rw [print] at foundPart
        obtain ⟨fields', all', rfl⟩ := Option.map_eq_some_iff.1 foundPart
        obtain ⟨inner, member', isBuf⟩ := mem_filterMap.1 inside
        rw [lenOf_eq_some_iff.1 isBuf] at member'
        rw [lenOf_eq_some_iff.1 print] at member
        exact (payload_within all' member').trans (payload_within all member)
  have tag : latin1 allocMarkerTag = "memory_".toList := by decide
  exact (latin1_within (tag ▸ memory_infix_of_allocMarkerText text)).trans within

/-! ### Which events are left -/

/-- The event that a token is, and whether it is scanned. -/
def Token.event? : Token → Option (Bytes × Bool)
  | .event bytes scanned => some (bytes, scanned)
  | _ => none

/-- The events of a trace, in order. -/
def eventsOf (tokens : List Token) : List Bytes := (tokens.filterMap Token.event?).map Prod.fst

theorem Token.Same.event_eq {token token' : Token} (same : token.Same token') :
    token'.event?.map Prod.fst = token.event?.map Prod.fst := by
  cases same with
  | copy _ => rfl
  | event => rfl
  | entry _ => rfl
  | blob _ => rfl

theorem eventsOf_same {tokens tokens' : List Token} (same : List.Forall₂ Token.Same tokens tokens') :
    eventsOf tokens' = eventsOf tokens := by
  simp only [eventsOf, map_filterMap]
  induction same with
  | nil => rfl
  | cons here later ih => rw [filterMap_cons, filterMap_cons, here.event_eq, ih]

theorem eventsOf_kept (tokens : List Token) :
    eventsOf (kept tokens) =
      ((tokens.filterMap Token.event?).filter fun event => !(event.2 && isMarker event.1)).map Prod.fst := by
  rw [eventsOf, kept, filterMap_filter, filter_filterMap]
  congr 2
  funext token
  cases token with
  | event bytes scanned =>
      change (if (!(scanned && isMarker bytes)) = true then some (bytes, scanned) else none) = _
      cases marked : (scanned && isMarker bytes) <;> simp [Token.event?, Option.filter, marked]
  | _ => rfl

/-- Two ways to select from a list agree if they agree on every item: the images of equal items count. -/
theorem map_filter_eq_iff {α β : Type*} [DecidableEq β] (f : α → β) (p : α → Bool) (q : β → Bool)
    (list : List α) :
    (list.filter p).map f = (list.map f).filter q ↔ ∀ item ∈ list, p item = q (f item) := by
  constructor
  · intro same item member
    cases selected : q (f item) with
    | false =>
        have absent : f item ∉ (list.filter p).map f := by
          rw [same]
          simp [selected]
        cases chosen : p item with
        | false => rfl
        | true => exact absurd (mem_map_of_mem (mem_filter.2 ⟨member, chosen⟩)) absent
    | true =>
        -- every item with this image counts on the right, so none of them may be missing on the left
        have counts : ((list.filter p).map f).count (f item) = ((list.map f).filter q).count
          (f item) := by rw [same]
        rw [count_filter selected, count_eq_countP, count_eq_countP, countP_map, countP_map,
          countP_eq_length_filter, countP_eq_length_filter, filter_comm] at counts
        have whole := (filter_sublist (p := p)).eq_of_length counts
        exact filter_eq_self.1 whole item (mem_filter.2 ⟨member, by simp⟩)
  · intro agree
    rw [filter_map, filter_congr agree]
    rfl

/-- What stripping leaves of the events. -/
theorem strip_events {zlib : Zlib} {depth : Nat} {trace : Bytes} {tokens : List Token}
    (decoded : decodeTrace zlib depth trace = some tokens) :
    ∃ out dropped tokens', stripAllocMarkers zlib depth trace = some (out, dropped) ∧
      decodeTrace zlib depth out = some tokens' ∧ eventsOf tokens' = eventsOf (kept tokens) := by
  obtain ⟨out, dropped, tokens', strips, decodedOut, stripped, _⟩ :=
    strip_refines zlib depth trace tokens decoded
  exact ⟨out, dropped, tokens', strips, decodedOut, eventsOf_same stripped.same⟩

/-- For every trace that is decoded: what is left of its events is those that are no marker of the hook,
exactly if every marker is scanned and carries no peak snapshot, and every other scanned event with
`memory_` in it carries one. -/
theorem strip_drops_markers_iff {zlib : Zlib} {depth : Nat} {trace : Bytes} {tokens : List Token}
    (decoded : decodeTrace zlib depth trace = some tokens) :
    (∃ out dropped tokens', stripAllocMarkers zlib depth trace = some (out, dropped) ∧
      decodeTrace zlib depth out = some tokens' ∧
      eventsOf tokens' = (eventsOf tokens).filter fun event => !isAllocPrint event) ↔
    ∀ event scanned, Token.event event scanned ∈ tokens →
      (isAllocPrint event → scanned ∧ ¬peakMarkerTag <:+: event) ∧
      (¬isAllocPrint event → scanned → allocMarkerTag <:+: event → peakMarkerTag <:+: event) := by
  obtain ⟨out, dropped, tokens', strips, decodedOut, events⟩ := strip_events decoded
  have selects : (∃ out dropped tokens', stripAllocMarkers zlib depth trace = some (out, dropped) ∧
      decodeTrace zlib depth out = some tokens' ∧
      eventsOf tokens' = (eventsOf tokens).filter fun event => !isAllocPrint event) ↔
      eventsOf (kept tokens) = (eventsOf tokens).filter fun event => !isAllocPrint event := by
    constructor
    · rintro ⟨_, _, _, strips', decodedOut', events'⟩
      cases strips.symm.trans strips'
      cases decodedOut.symm.trans decodedOut'
      rw [← events, events']
    · intro same
      exact ⟨out, dropped, tokens', strips, decodedOut, events.trans same⟩
  rw [selects, eventsOf_kept, eventsOf, map_filter_eq_iff]
  have pairs : (∀ pair ∈ tokens.filterMap Token.event?, (!(pair.2 && isMarker pair.1)) =
    !isAllocPrint pair.1) ↔
      ∀ event scanned, Token.event event scanned ∈ tokens →
        (scanned && isMarker event) = isAllocPrint event := by
    constructor
    · intro each event scanned member
      exact Bool.not_inj (each (event, scanned) (mem_filterMap.2 ⟨_, member, rfl⟩))
    · intro each pair member
      obtain ⟨token, there, same⟩ := mem_filterMap.1 member
      cases token with
      | event bytes scanned =>
          cases same
          rw [each bytes scanned there]
      | _ => cases same
  rw [pairs]
  refine forall_congr' fun event => forall_congr' fun scanned => imp_congr_right fun _ => ?_
  cases marked : isAllocPrint event with
  | true => simp [isMarker, allocMarkerTag_within marked]
  | false => cases scanned <;> simp [isMarker]

/-- The two markers of an allocation go, and the slice between them stays. -/
theorem strip_drops_markers_frame :
    ∃ out dropped tokens', stripAllocMarkers .stored 2 nestedTrace = some (out, dropped) ∧
      decodeTrace .stored 2 out = some tokens' ∧ eventsOf tokens' = [printEvent 20 "B|7|frame"] := by
  obtain ⟨tokens, decoded, condition, left⟩ : ∃ tokens ∈ decodeTrace .stored 2 nestedTrace,
      (tokens.all fun token => token.event?.all fun pair => decide ((isAllocPrint pair.1 → pair.2 = true ∧
          ¬peakMarkerTag <:+: pair.1) ∧ (¬isAllocPrint pair.1 → pair.2 = true → allocMarkerTag <:+: pair.1 →
          peakMarkerTag <:+: pair.1))) ∧
        ((eventsOf tokens).filter fun event => !isAllocPrint event) = [printEvent 20 "B|7|frame"] := by
    decide +kernel
  rw [← left]
  refine (strip_drops_markers_iff decoded).2 fun event scanned member => ?_
  exact of_decide_eq_true (all_eq_true.1 condition _ member)

/-- A packet with one slice of an application. -/
def poolTrace : Bytes := encodeLenField 1 (printPacket [(10, "B|7|memory_pool")])

/-- The slice of an application whose name has `memory_` in it is dropped. -/
theorem foreign_event_dropped :
    (decodeTrace .stored 1 poolTrace).map eventsOf = some [printEvent 10 "B|7|memory_pool"] ∧
      isAllocPrint (printEvent 10 "B|7|memory_pool") = false ∧
      (stripAllocMarkers .stored 1 poolTrace).bind
      (fun stripped => (decodeTrace .stored 1 stripped.1).map eventsOf) = some [] := by
  decide +kernel

example : isAllocPrint (printEvent 10 "S|7|memory_dma@0x10.h2.s3|16") := by decide +kernel

end MallocHook
