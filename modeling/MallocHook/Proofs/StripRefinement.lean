/-
Module: MallocHook.Proofs.StripRefinement
Purpose: Stripping removes events and nothing else: the output decodes into the tokens of the input
  without the dropped events. Packets that are copied unread are followed too.
Trusted boundary: none
Main exports: Refines, strip_refines, strip_preserves
-/
import MallocHook.Core.MarkerStrip
import MallocHook.Proofs.PacketReading

namespace MallocHook

open WireFormat List
open Option (bind_eq_some_iff bind_some map_eq_some_iff map_some)

/-! ### Decoding -/

/-- What a trace consists of, in the order of its bytes. Entries of the root and blobs carry their bytes
and how many events are dropped inside. An event is scanned if no packet around it is copied unread. -/
inductive Token where
  | entry (root packet : Bytes) (markers : Nat)
  | endEntry
  | bundle
  | endBundle
  | blob (framing : Framing) (payload : Bytes) (markers : Nat)
  | endBlob
  | event (bytes : Bytes) (scanned : Bool)
  | field (field : WireField)
deriving DecidableEq, Repr

namespace Token

/-- The event mentions `memory_` and no peak snapshot. -/
def isMarkerEvent : Token → Bool
  | .event bytes _ => isMarker bytes
  | _ => false

/-- The event is dropped. -/
def dropped : Token → Bool
  | .event bytes scanned => scanned && isMarker bytes
  | _ => false

/-- How many events are dropped inside. -/
def markers : Token → Nat
  | .entry _ _ markers | .blob _ _ markers => markers
  | _ => 0

/-- The token inside a packet that is copied unread. -/
def unscan : Token → Token
  | .entry root packet _ => .entry root packet 0
  | .blob framing payload _ => .blob framing payload 0
  | .event bytes _ => .event bytes false
  | token => token

end Token

/-- How many events are dropped. -/
def markersIn (tokens : List Token) : Nat := tokens.countP Token.dropped

section

variable (zlib : Zlib) (decode : Bytes → Option (List Token))

/-- A field of a bundle. -/
def decodeBundleField (field : WireField) : Token :=
  (lenOf ftraceEventField field).elim (.field field) (.event · true)

def decodeBundle (payload : Bytes) : Option (List Token) :=
  (iterFields payload).map fun fields => .bundle :: fields.map decodeBundleField ++ [.endBundle]

def decodeBlob (payload : Bytes) : Option (List Token) :=
  (inflate zlib payload).bind fun (inner, framing) =>
    (decode inner).map fun tokens => .blob framing payload (markersIn tokens) :: tokens ++ [.endBlob]

/-- A field of a packet. -/
def decodeField (field : WireField) : Option (List Token) :=
  match lenOf ftraceBundleField field, lenOf compressedPacketsField field with
  | some payload, _ => decodeBundle payload
  | none, some payload => decodeBlob zlib decode payload
  | none, none => some [.field field]

def decodePacket (packet : Bytes) : Option (List Token) :=
  (iterFields packet).bind fun fields => (fields.mapM (decodeField zlib decode)).map List.flatten

/-- An entry of the root. -/
def decodeEntry (entry : Bytes × Bytes) : Option (List Token) :=
  (decodePacket zlib decode entry.2).map fun tokens =>
    let tokens := if cheapPath entry.2 then tokens.map Token.unscan else tokens
    .entry entry.1 entry.2 (markersIn tokens) :: tokens ++ [.endEntry]

end

/-- The tokens of a trace in which compressed packets are nested less than `depth` deep. -/
def decodeTrace (zlib : Zlib) : Nat → Bytes → Option (List Token)
  | 0, _ => none
  | depth + 1, trace =>
      (iterTracePacketEntries trace).bind fun entries =>
        (entries.mapM (decodeEntry zlib (decodeTrace zlib depth))).map List.flatten

/-! ### Tokens before and after -/

/-- What becomes of a token that is kept: entries and blobs are new if something was dropped inside. What
is left of a packet may be copied unread the next time. -/
inductive Token.Same : Token → Token → Prop
  | copy {token : Token} : token.markers = 0 → Same token token
  | event {bytes : Bytes} {scanned : Bool} : Same (.event bytes scanned) (.event bytes false)
  | entry {root packet root' packet' : Bytes} {markers : Nat} : 0 < markers →
      Same (.entry root packet markers) (.entry root' packet' 0)
  | blob {framing : Framing} {payload payload' : Bytes} {markers : Nat} : 0 < markers →
      Same (.blob framing payload markers) (.blob framing payload' 0)

/-- The tokens that are not dropped. -/
def kept (tokens : List Token) : List Token := tokens.filter fun token => !token.dropped

/-- `tokens'` is what is left of `tokens` when `dropped` events are dropped. -/
structure Stripped (tokens tokens' : List Token) (dropped : Nat) : Prop where
  counted : dropped = markersIn tokens
  bounded : ∀ token ∈ tokens, token.markers ≤ dropped
  same : List.Forall₂ Token.Same (kept tokens) tokens'

namespace Token

variable {token token' : Token}

theorem Same.dropped_eq_false (same : token.Same token') (keeps : token.dropped = false) :
    token'.dropped = false := by
  cases same with
  | copy _ => exact keeps
  | event => rfl
  | entry _ => rfl
  | blob _ => rfl

theorem Same.unscan (same : token.Same token') : token.Same token'.unscan := by
  cases same with
  | copy none =>
      cases token with
      | entry root packet markers =>
          cases none
          exact .copy rfl
      | blob framing payload markers =>
          cases none
          exact .copy rfl
      | event bytes scanned => exact .event
      | field field => exact .copy rfl
      | _ => exact .copy rfl
  | event => exact .event
  | entry some => exact .entry some
  | blob some => exact .blob some

@[simp] theorem unscan_dropped (token : Token) : token.unscan.dropped = false := by cases token <;> rfl

@[simp] theorem unscan_markers (token : Token) : token.unscan.markers = 0 := by cases token <;> rfl

end Token

@[simp] theorem markersIn_append (one two : List Token) :
    markersIn (one ++ two) = markersIn one + markersIn two :=
  countP_append

variable {tokens : List Token}

theorem markersIn_eq_zero_iff : markersIn tokens = 0 ↔ ∀ token ∈ tokens, token.dropped = false := by
  simp [markersIn, countP_eq_zero]

theorem kept_eq_self (noMarker : markersIn tokens = 0) : kept tokens = tokens := by
  refine filter_eq_self.2 fun token member => ?_
  rw [markersIn_eq_zero_iff.1 noMarker token member]
  rfl

namespace Stripped

variable {tokens tokens' later later' : List Token} {dropped droppedLater : Nat} {first first' last : Token}

theorem nil : Stripped [] [] 0 := ⟨rfl, by simp, .nil⟩

theorem append (here : Stripped tokens tokens' dropped) (there : Stripped later later' droppedLater) :
    Stripped (tokens ++ later) (tokens' ++ later') (dropped + droppedLater) where
  counted := by rw [markersIn_append, here.counted, there.counted]
  bounded := by
    intro token member
    rcases mem_append.1 member with member | member
    · exact (here.bounded token member).trans (Nat.le_add_right _ _)
    · exact (there.bounded token member).trans (Nat.le_add_left _ _)
  same := by
    rw [kept, filter_append]
    exact rel_append here.same there.same

/-- Nothing is dropped from tokens that have nothing to drop. -/
theorem refl (clean : ∀ token ∈ tokens, token.dropped = false ∧ token.markers = 0) :
    Stripped tokens tokens 0 := by
  have noMarker : markersIn tokens = 0 := markersIn_eq_zero_iff.2 fun token member => (clean token member).1
  refine ⟨noMarker.symm, fun token member => (clean token member).2.le, ?_⟩
  rw [kept_eq_self noMarker]
  exact forall₂_same.2 fun token member => .copy (clean token member).2

theorem refl_of_zero (stripped : Stripped tokens tokens' 0) : Stripped tokens tokens 0 :=
  refl fun token member => ⟨markersIn_eq_zero_iff.1 stripped.counted.symm token member,
    Nat.le_zero.1 (stripped.bounded token member)⟩

variable (stripped : Stripped tokens tokens' dropped)
include stripped

theorem clean : ∀ token ∈ tokens', token.dropped = false := by
  intro token' member
  obtain ⟨token, keeps, same⟩ := exists_of_forall₂ stripped.same token' member
  exact same.dropped_eq_false (by simpa using (mem_filter.1 keeps).2)

theorem markersIn_eq_zero : markersIn tokens' = 0 := markersIn_eq_zero_iff.2 stripped.clean

theorem unscan : Stripped tokens (tokens'.map Token.unscan) dropped where
  counted := stripped.counted
  bounded := stripped.bounded
  same := forall₂_map_right_iff.2 (stripped.same.imp fun _ _ same => same.unscan)

/-- What stands between two tokens. -/
theorem wrap (fits : first.markers ≤ dropped) (keeps : first.dropped = false) (same : first.Same first')
    (keepsLast : last.dropped = false) (last_markers : last.markers = 0) :
    Stripped (first :: tokens ++ [last]) (first' :: tokens' ++ [last]) dropped where
  counted := by
    have counted := stripped.counted
    simp only [markersIn, cons_append, countP_cons, countP_append, keeps, keepsLast] at counted ⊢
    simpa using counted
  bounded := by
    intro token member
    simp only [cons_append, mem_cons, mem_append, not_mem_nil, or_false] at member
    rcases member with rfl | member | rfl
    · exact fits
    · exact stripped.bounded token member
    · rw [last_markers]
      exact Nat.zero_le _
  same := by
    have split : kept (first :: tokens ++ [last]) = first :: kept tokens ++ [last] := by
      simp [kept, keeps, keepsLast]
    rw [split]
    exact .cons same (rel_append stripped.same (.cons (.copy last_markers) .nil))

end Stripped

/-! ### The parts of a list -/

section

variable {α : Type*} {decode : α → Option (List Token)} {Gives : α → α → Nat → Prop} {items : List α}
  {tokens : List Token}

/-- Items that are stripped one by one: `Gives` relates an item to its replacement and the events dropped.
-/
theorem parts_stripped (one : ∀ item ∈ items, ∀ tokens, decode item = some tokens →
      ∃ item' dropped tokens', Gives item item' dropped ∧ decode item' = some tokens' ∧
      Stripped tokens tokens' dropped) (decoded : (items.mapM decode).map List.flatten = some tokens) :
    ∃ (parts : List (α × Nat)) (tokens' : List Token),
      List.Forall₂ (fun item part => Gives item part.1 part.2) items parts ∧
      ((parts.map Prod.fst).mapM decode).map List.flatten = some tokens' ∧
      Stripped tokens tokens' (parts.map Prod.snd).sum := by
  obtain ⟨results, all, rfl⟩ := map_eq_some_iff.1 decoded
  clear decoded
  replace all := mapM_eq_some_iff_forall₂.1 all
  induction all with
  | nil => exact ⟨[], [], .nil, rfl, .nil⟩
  | cons here later ih =>
      obtain ⟨oneHere, oneLater⟩ := forall_mem_cons.1 one
      obtain ⟨item', dropped, first', gives, decoded', stripped⟩ := oneHere _ here
      obtain ⟨parts, rest', givesRest, decodedRest, strippedRest⟩ := ih oneLater
      obtain ⟨results', allRest, rfl⟩ := map_eq_some_iff.1 decodedRest
      refine ⟨(item', dropped) :: parts, first' ++ results'.flatten, .cons gives givesRest, ?_,
        stripped.append strippedRest⟩
      rw [map_cons, mapM_cons, decoded', allRest]
      rfl

/-- If nothing is dropped, every item is itself. -/
theorem parts_unchanged {parts : List (α × Nat)}
    (unchanged : List.Forall₂ (fun item part => part.2 = 0 → part.1 = item) items parts)
    (noDrop : (parts.map Prod.snd).sum = 0) : parts.map Prod.fst = items := by
  induction unchanged with
  | nil => rfl
  | cons here later ih =>
      rw [map_cons, sum_cons] at noDrop
      rw [map_cons, here (by omega), ih (by omega)]

end

/-! ### Bundles -/

theorem dropped_comp_decodeBundleField : Token.dropped ∘ decodeBundleField = isStripped := by
  funext field
  change (decodeBundleField field).dropped = _
  unfold decodeBundleField isStripped
  cases lenOf ftraceEventField field with
  | none => rfl
  | some event => rfl

theorem decodeBundleField_markers (field : WireField) : (decodeBundleField field).markers = 0 := by
  unfold decodeBundleField
  cases lenOf ftraceEventField field with
  | none => rfl
  | some event => rfl

theorem stripBundle_stripped {payload : Bytes} (decoded : decodeBundle payload = some tokens) :
    ∃ newPayload dropped tokens', stripBundle payload = some (newPayload, dropped) ∧
      decodeBundle newPayload = some tokens' ∧ Stripped tokens tokens' dropped := by
  obtain ⟨fields, all, rfl⟩ := map_eq_some_iff.1 decoded
  obtain ⟨items, rfl, rfl, framed⟩ := framed_of_readAll isReader_readField all
  have keptFramed := framed_encode (framed.filter fun entry => !isStripped entry.2)
    (forall₂_map_right_iff.2 (forall₂_same.2 fun entry _ => .inl rfl))
  have again := iterFields_of_framed keptFramed
  rw [← Function.comp_def (fun field => !isStripped field) Prod.snd, ← filter_map] at again
  refine ⟨_, _, _, by rw [stripBundle, all]; rfl, by rw [decodeBundle, again]; rfl, ?_⟩
  refine Stripped.wrap ⟨?_, ?_, ?_⟩ (Nat.zero_le _) rfl (.copy rfl) rfl rfl
  · rw [markersIn, countP_map (f := decodeBundleField), dropped_comp_decodeBundleField]
  · intro token member
    obtain ⟨field, _, rfl⟩ := mem_map.1 member
    exact (decodeBundleField_markers field).le.trans (Nat.zero_le _)
  · have sameTest : ((fun token : Token => !token.dropped) ∘ decodeBundleField) = fun field =>
      !isStripped field := by
      rw [← dropped_comp_decodeBundleField]
      rfl
    rw [kept, filter_map, sameTest]
    refine forall₂_same.2 fun token member => .copy ?_
    obtain ⟨field, _, rfl⟩ := mem_map.1 member
    exact decodeBundleField_markers field

/-! ### Packets -/

/-- `strip` takes what `decode` decodes apart and drops the events that are scanned; where it drops none
it returns what it was given. -/
def Refines (strip : Bytes → Option (Bytes × Nat)) (decode : Bytes → Option (List Token)) : Prop :=
  ∀ bytes tokens, decode bytes = some tokens → ∃ out dropped tokens', strip bytes = some (out, dropped) ∧
    decode out = some tokens' ∧ Stripped tokens tokens' dropped ∧ (dropped = 0 → out = bytes)

@[simp] theorem inflate_deflate (zlib : Zlib) (framing : Framing) (payload : Bytes) :
    inflate zlib (zlib.deflate framing payload) = some (payload, framing) := by
  cases framing with
  | zlib => simp [inflate, zlib.decompress_deflate]
  | raw => simp [inflate, zlib.decompress_deflate, zlib.raw_is_not_zlib]

section

variable {zlib : Zlib} {strip : Bytes → Option (Bytes × Nat)} {decode : Bytes → Option (List Token)}
  {tokens : List Token}

theorem stripBlob_stripped (nested : Refines strip decode) {payload : Bytes}
    (decoded : decodeBlob zlib decode payload = some tokens) :
    ∃ newPayload dropped tokens', stripBlob zlib strip payload = some (newPayload, dropped) ∧
      decodeBlob zlib decode newPayload = some tokens' ∧ Stripped tokens tokens' dropped := by
  obtain ⟨⟨inner, framing⟩, inflated, found⟩ := bind_eq_some_iff.1 decoded
  obtain ⟨innerTokens, decodedInner, rfl⟩ := map_eq_some_iff.1 found
  obtain ⟨out, dropped, innerTokens', stripped, decodedOut, result, _⟩ :=
    nested inner innerTokens decodedInner
  have gives : stripBlob zlib strip payload =
      some (if dropped = 0 then payload else zlib.deflate framing out, dropped) := by
    simp [stripBlob, inflated, stripped]
  by_cases none : dropped = 0
  · subst none
    refine ⟨_, _, _, gives, decoded, ?_⟩
    exact result.refl_of_zero.wrap result.counted.symm.le rfl (.copy result.counted.symm) rfl rfl
  · rw [if_neg none] at gives
    have decoded' : decodeBlob zlib decode (zlib.deflate framing out) =
        some (.blob framing (zlib.deflate framing out) (markersIn innerTokens') ::
          innerTokens' ++ [.endBlob]) := by
      simp only [decodeBlob, inflate_deflate, bind_some, decodedOut, map_some]
    rw [result.markersIn_eq_zero] at decoded'
    refine ⟨_, _, _, gives, decoded', ?_⟩
    refine result.wrap result.counted.symm.le rfl (.blob ?_) rfl rfl
    rw [← result.counted]
    exact Nat.pos_of_ne_zero none

theorem stripField_stripped (nested : Refines strip decode) {field : WireField}
    (decoded : decodeField zlib decode field = some tokens) :
    ∃ field' dropped tokens',
      (stripField zlib strip field = some (field', dropped) ∧ (field' = field ∨ field'.value.Complete)) ∧
      decodeField zlib decode field' = some tokens' ∧ Stripped tokens tokens' dropped := by
  unfold decodeField at decoded
  split at decoded
  · next payload _ bundle =>
      obtain ⟨newPayload, dropped, tokens', gives, decoded', stripped⟩ := stripBundle_stripped decoded
      refine ⟨⟨ftraceBundleField, .len newPayload⟩, dropped, tokens', ⟨?_, .inr trivial⟩, ?_, stripped⟩
      · simp [stripField, bundle, gives]
      · simpa [decodeField] using decoded'
  · next payload bundle blob =>
      obtain ⟨newPayload, dropped, tokens', gives, decoded', stripped⟩ := stripBlob_stripped nested decoded
      have other : lenOf ftraceBundleField ⟨compressedPacketsField, .len newPayload⟩ = none := rfl
      refine ⟨⟨compressedPacketsField, .len newPayload⟩, dropped, tokens', ⟨?_, .inr trivial⟩, ?_, stripped⟩
      · simp [stripField, bundle, blob, gives]
      · simpa [decodeField, other] using decoded'
  · next bundle blob =>
      cases decoded
      refine ⟨field, 0, [.field field], ⟨?_, .inl rfl⟩, ?_, .refl (by simp [Token.dropped, Token.markers])⟩
      · simp [stripField, bundle, blob]
      · simp [decodeField, bundle, blob]

theorem stripPacket_stripped (nested : Refines strip decode) {packet : Bytes}
    (decoded : decodePacket zlib decode packet = some tokens) :
    ∃ newPacket dropped tokens', stripPacket zlib strip packet = some (newPacket, dropped) ∧
      decodePacket zlib decode newPacket = some tokens' ∧ Stripped tokens tokens' dropped := by
  obtain ⟨fields, all, decodedFields⟩ := bind_eq_some_iff.1 decoded
  obtain ⟨parts, tokens', gives, decodedParts, stripped⟩ :=
    parts_stripped (fun field _ tokens decoded => stripField_stripped nested decoded) decodedFields
  have strips : fields.mapM (stripField zlib strip) = some parts :=
    mapM_eq_some_iff_forall₂.2 (gives.imp fun _ _ given => given.1)
  by_cases none : (parts.map Prod.snd).sum = 0
  · rw [none] at stripped
    exact ⟨packet, 0, tokens, by simp [stripPacket, all, strips, none], decoded, stripped.refl_of_zero⟩
  · obtain ⟨items, rfl, rfl, framed⟩ := framed_of_readAll isReader_readField all
    have again := iterFields_of_framed (framed_encode framed (forall₂_map_right_iff.2
      ((forall₂_map_left_iff.1 gives).imp fun _ _ given => given.2)))
    rw [map_map] at again
    refine ⟨(parts.map (WireField.encode ∘ Prod.fst)).flatten, (parts.map Prod.snd).sum, tokens',
      ?_, ?_, stripped⟩
    · simp only [stripPacket, all, strips, bind_some, map_some, if_neg none]
      rfl
    · rw [decodePacket, again]
      exact decodedParts

/-! ### Entries and traces -/

theorem stripEntry_stripped (nested : Refines strip decode) {entry : Bytes × Bytes}
    (decoded : decodeEntry zlib decode entry = some tokens) :
    ∃ entry' dropped tokens',
      (stripEntry zlib strip entry = some (entry'.1, dropped) ∧
      (entry' = entry ∨ Delimits readPacket entry') ∧ (dropped = 0 → entry' = entry)) ∧
      decodeEntry zlib decode entry' = some tokens' ∧ Stripped tokens tokens' dropped := by
  obtain ⟨inner, decodedInner, rfl⟩ := map_eq_some_iff.1 decoded
  by_cases cheap : cheapPath entry.2
  · refine ⟨entry, 0, _, ⟨by simp [stripEntry, cheap], .inl rfl, fun _ => rfl⟩, decoded, ?_⟩
    have unread : Stripped (inner.map Token.unscan) (inner.map Token.unscan) 0 := by
      refine .refl fun token member => ?_
      obtain ⟨scanned, _, rfl⟩ := mem_map.1 member
      exact ⟨scanned.unscan_dropped, scanned.unscan_markers⟩
    simp only [if_pos cheap]
    exact unread.wrap unread.counted.symm.le rfl (.copy unread.counted.symm) rfl rfl
  · obtain ⟨newPacket, dropped, inner', gives, decoded', stripped⟩ :=
      stripPacket_stripped nested decodedInner
    simp only [if_neg cheap] at decoded ⊢
    by_cases none : dropped = 0
    · subst none
      refine ⟨entry, 0, _, ⟨by simp [stripEntry, cheap, gives], .inl rfl, fun _ => rfl⟩, decoded, ?_⟩
      exact stripped.refl_of_zero.wrap stripped.counted.symm.le rfl (.copy stripped.counted.symm) rfl rfl
    · -- what is left of the packet may be copied unread the next time
      have left : Stripped inner (if cheapPath newPacket then inner'.map Token.unscan
        else inner') dropped := by
        split
        · exact stripped.unscan
        · exact stripped
      have decodedNew : decodeEntry zlib decode (encodeLenField 1 newPacket, newPacket) =
          some (.entry (encodeLenField 1 newPacket) newPacket
            (markersIn (if cheapPath newPacket then inner'.map Token.unscan else inner')) ::
              (if cheapPath newPacket then inner'.map Token.unscan else inner') ++ [.endEntry]) := by
        simp only [decodeEntry, decoded', map_some]
      rw [left.markersIn_eq_zero] at decodedNew
      refine ⟨(encodeLenField 1 newPacket, newPacket), dropped, _, ⟨by simp [stripEntry, cheap, gives, none],
        .inr (packet_delimits newPacket), fun zero => absurd zero none⟩, decodedNew, ?_⟩
      refine left.wrap left.counted.symm.le rfl (.entry ?_) rfl rfl
      rw [← left.counted]
      exact Nat.pos_of_ne_zero none

end

/-- The refinement, for traces nested to any depth. -/
theorem strip_refines (zlib : Zlib) (depth : Nat) :
    Refines (stripAllocMarkers zlib depth) (decodeTrace zlib depth) := by
  induction depth with
  | zero =>
      intro trace tokens decoded
      cases decoded
  | succ depth nested =>
      intro trace tokens decoded
      obtain ⟨entries, all, decodedEntries⟩ := bind_eq_some_iff.1 decoded
      obtain ⟨parts, tokens', gives, decodedParts, stripped⟩ :=
        parts_stripped (fun entry _ tokens decoded => stripEntry_stripped nested decoded) decodedEntries
      have strips : entries.mapM (stripEntry zlib (stripAllocMarkers zlib depth)) =
          some (parts.map fun part => (part.1.1, part.2)) :=
        mapM_eq_some_iff_forall₂.2 (forall₂_map_right_iff.2 (gives.imp fun _ _ given => given.1))
      obtain ⟨rfl, framed, _⟩ := readAll_withSpan isReader_readPacket all
      have framed' : Framed readPacket (parts.map Prod.fst) := by
        refine framed.replace (forall₂_map_right_iff.2 (gives.imp fun entry part given => ?_))
        rcases given.2.1 with same | delimits
        · rw [same]
          exact ⟨id, id⟩
        · exact ⟨fun _ => delimits, fun _ => delimits.ends⟩
      refine ⟨spans (parts.map Prod.fst), (parts.map Prod.snd).sum, tokens', ?_, ?_, stripped, ?_⟩
      · simp only [stripAllocMarkers, all, strips, bind_some, map_some, map_map]
        rw [spans, map_map]
        rfl
      · rw [decodeTrace, iterTracePacketEntries, readAll_withSpan_of_framed framed']
        exact decodedParts
      · intro noDrop
        rw [parts_unchanged (gives.imp fun _ _ given => given.2.2) noDrop]

/-! ### Minimal keys -/

/-- The keys of the fields of a packet are as short as they can be. -/
def minimalKeys (packet : Bytes) : Bool :=
  ((readAll (withSpan readField) packet).getD []).all fun entry =>
    decide (encodeKey entry.2.number entry.2.value.wireType <+: entry.1)

/-- The keys of the packet that an entry stands for are minimal. -/
def Token.keysMinimal : Token → Bool
  | .entry _ packet _ => minimalKeys packet
  | _ => true

/-- A packet with a compressed blob has the key of the blob in it. -/
theorem compressedKey_within {packet payload : Bytes} {fields : List WireField}
    (all : iterFields packet = some fields) (minimal : minimalKeys packet)
    (member : ⟨compressedPacketsField, .len payload⟩ ∈ fields) : compressedKey <:+: packet := by
  obtain ⟨items, rfl, rfl, framed⟩ := framed_of_readAll isReader_readField all
  obtain ⟨⟨span, field⟩, item, ⟨⟩⟩ := mem_map.1 member
  rw [minimalKeys, readAll_withSpan_of_framed framed, Option.getD_some, all_eq_true] at minimal
  have key : compressedKey <+: span := of_decide_eq_true (minimal _ item)
  exact key.isInfix.trans (span_infix_spans item)

section

variable {zlib : Zlib} {strip : Bytes → Option (Bytes × Nat)} {decode : Bytes → Option (List Token)}
  {tokens : List Token} {packet : Bytes} {fields : List WireField}

section

variable (all : iterFields packet = some fields) (minimal : minimalKeys packet) (cheap : cheapPath packet)
include all minimal cheap

/-- A packet that is copied unread has no field that `_strip_packet` would change. -/
theorem stripField_of_cheapPath {field : WireField} (member : field ∈ fields) :
    lenOf compressedPacketsField field = none ∧
      ∀ payload events, lenOf ftraceBundleField field = some payload → iterFields payload = some events →
        ∀ event ∈ events, isStripped event = false := by
  simp only [cheapPath, Bool.and_eq_true, Bool.not_eq_true', decide_eq_false_iff_not] at cheap
  constructor
  · cases blob : lenOf compressedPacketsField field with
    | none => rfl
    | some payload =>
        rw [lenOf_eq_some_iff.1 blob] at member
        exact absurd (compressedKey_within all minimal member) cheap.2
  · intro payload events bundle allEvents event there
    rw [lenOf_eq_some_iff.1 bundle] at member
    unfold isStripped
    cases found : lenOf ftraceEventField event with
    | none => rfl
    | some bytes =>
        rw [lenOf_eq_some_iff.1 found] at there
        have unmarked : ¬allocMarkerTag <:+: bytes := fun marked =>
          cheap.1 (marked.trans ((payload_within allEvents there).trans (payload_within all member)))
        simp [isMarker, unmarked]

theorem stripField_eq_zero {field : WireField} (member : field ∈ fields)
    (decoded : decodeField zlib decode field = some tokens) :
    ∃ field', stripField zlib strip field = some (field', 0) := by
  obtain ⟨blob, events⟩ := stripField_of_cheapPath all minimal cheap member
  cases bundle : lenOf ftraceBundleField field with
  | none => exact ⟨field, by simp [stripField, bundle, blob]⟩
  | some payload =>
      simp only [decodeField, bundle] at decoded
      obtain ⟨events', allEvents, _⟩ := map_eq_some_iff.1 decoded
      have noMarker : events'.countP isStripped = 0 :=
        countP_eq_zero.2 fun event there => by simp [events payload events' bundle allEvents event there]
      have gives : stripField zlib strip field = some (⟨ftraceBundleField, .len
          ((events'.filter fun event => !isStripped event).map WireField.encode).flatten⟩, 0) := by
        simp only [stripField, bundle, stripBundle, allEvents, map_some, noMarker]
      exact ⟨_, gives⟩

end

theorem mapM_eq_zero {α β : Type*} {f : α → Option (β × Nat)} {items : List α}
    (each : ∀ item ∈ items, ∃ item', f item = some (item', 0)) :
    ∃ parts, items.mapM f = some parts ∧ (parts.map Prod.snd).sum = 0 := by
  induction items with
  | nil => exact ⟨[], rfl, rfl⟩
  | cons item rest ih =>
      obtain ⟨⟨item', here⟩, later⟩ := forall_mem_cons.1 each
      obtain ⟨parts, all, noDrop⟩ := ih later
      refine ⟨(item', 0) :: parts, ?_, by simpa using noDrop⟩
      rw [mapM_cons, here, all]
      rfl

/-- `_strip_packet` drops nothing from a packet that is copied unread. -/
theorem stripPacket_of_cheapPath (decoded : decodePacket zlib decode packet = some tokens)
    (minimal : minimalKeys packet) (cheap : cheapPath packet) :
    stripPacket zlib strip packet = some (packet, 0) := by
  obtain ⟨fields, all, decodedFields⟩ := bind_eq_some_iff.1 decoded
  obtain ⟨results, decodedEach, _⟩ := map_eq_some_iff.1 decodedFields
  have each : ∀ field ∈ fields, ∃ field', stripField zlib strip field = some (field', 0) := by
    intro field member
    obtain ⟨result, _, decodedField⟩ := exists_of_forall₂
      (mapM_eq_some_iff_forall₂.1 decodedEach).flip field member
    exact stripField_eq_zero all minimal cheap member decodedField
  obtain ⟨parts, strips, noDrop⟩ := mapM_eq_zero each
  simp [stripPacket, all, strips, noDrop]

/-- What was copied unread had nothing to drop. -/
def Token.CheapAgrees (zlib : Zlib) : Token → Prop
  | .entry _ packet _ => cheapPath packet → ∀ strip, stripPacket zlib strip packet = some (packet, 0)
  | .event bytes scanned => isMarker bytes → scanned
  | _ => True

/-- A token of a list of parts belongs to one of them. -/
theorem part_of_mem {α : Type*} {decode : α → Option (List Token)} {items : List α}
    (decoded : (items.mapM decode).map List.flatten = some tokens) :
    ∀ token ∈ tokens, ∃ item ∈ items, ∃ part, decode item = some part ∧ token ∈ part ∧ part ⊆ tokens := by
  obtain ⟨results, all, rfl⟩ := map_eq_some_iff.1 decoded
  intro token member
  obtain ⟨part, there, inside⟩ := mem_flatten.1 member
  obtain ⟨item, here, decodedPart⟩ := exists_of_forall₂ (mapM_eq_some_iff_forall₂.1 all) part there
  exact ⟨item, here, part, decodedPart, inside, fun _ within => mem_flatten.2 ⟨part, there, within⟩⟩

theorem bundle_cheapAgrees {payload : Bytes} (decoded : decodeBundle payload = some tokens) :
    ∀ token ∈ tokens, token.CheapAgrees zlib := by
  obtain ⟨events, _, rfl⟩ := map_eq_some_iff.1 decoded
  intro token member
  simp only [cons_append, mem_cons, mem_append, mem_map, not_mem_nil, or_false] at member
  rcases member with rfl | ⟨event, _, rfl⟩ | rfl
  · trivial
  · unfold decodeBundleField
    cases lenOf ftraceEventField event with
    | none => trivial
    | some bytes => exact fun _ => rfl
  · trivial

section

variable (nested : ∀ bytes tokens, decode bytes = some tokens → (∀ token ∈ tokens, token.keysMinimal) →
  ∀ token ∈ tokens, token.CheapAgrees zlib)

include nested in
theorem field_cheapAgrees {field : WireField} (decoded : decodeField zlib decode field = some tokens)
    (minimal : ∀ token ∈ tokens, token.keysMinimal) : ∀ token ∈ tokens, token.CheapAgrees zlib := by
  unfold decodeField at decoded
  split at decoded
  · exact bundle_cheapAgrees decoded
  · obtain ⟨⟨inner, framing⟩, _, found⟩ := bind_eq_some_iff.1 decoded
    obtain ⟨innerTokens, decodedInner, rfl⟩ := map_eq_some_iff.1 found
    simp only [cons_append, forall_mem_cons, forall_mem_append] at minimal ⊢
    exact ⟨trivial, nested inner innerTokens decodedInner minimal.2.1, by simp [Token.CheapAgrees]⟩
  · cases decoded
    simp [Token.CheapAgrees]

/-- The tokens of a packet that is copied unread. -/
theorem unscan_cheapAgrees (decoded : decodePacket zlib decode packet = some tokens)
    (minimal : minimalKeys packet) (cheap : cheapPath packet) :
    ∀ token ∈ tokens, token.unscan.CheapAgrees zlib := by
  obtain ⟨fields, all, decodedFields⟩ := bind_eq_some_iff.1 decoded
  intro token member
  obtain ⟨field, here, part, decodedPart, inside, _⟩ := part_of_mem decodedFields token member
  obtain ⟨blob, events⟩ := stripField_of_cheapPath all minimal cheap here
  cases bundle : lenOf ftraceBundleField field with
  | none =>
      simp only [decodeField, bundle, blob, Option.some.injEq] at decodedPart
      subst decodedPart
      cases mem_singleton.1 inside
      trivial
  | some payload =>
      simp only [decodeField, bundle] at decodedPart
      obtain ⟨events', allEvents, rfl⟩ := map_eq_some_iff.1 decodedPart
      simp only [cons_append, mem_cons, mem_append, mem_map, not_mem_nil, or_false] at inside
      rcases inside with rfl | ⟨event, there, rfl⟩ | rfl
      · trivial
      · have unmarked := events payload events' bundle allEvents event there
        unfold isStripped at unmarked
        unfold decodeBundleField
        cases found : lenOf ftraceEventField event with
        | none => trivial
        | some bytes =>
            rw [found] at unmarked
            intro marked
            exact absurd marked (by simpa using unmarked)
      · trivial

include nested in
theorem entry_cheapAgrees {entry : Bytes × Bytes} (decoded : decodeEntry zlib decode entry = some tokens)
    (minimal : ∀ token ∈ tokens, token.keysMinimal) : ∀ token ∈ tokens, token.CheapAgrees zlib := by
  obtain ⟨inner, decodedInner, rfl⟩ := map_eq_some_iff.1 decoded
  simp only [cons_append, forall_mem_cons, forall_mem_append] at minimal ⊢
  refine ⟨fun cheap strip => stripPacket_of_cheapPath decodedInner minimal.1 cheap,
    ?_, by simp [Token.CheapAgrees]⟩
  by_cases cheap : cheapPath entry.2
  · rw [if_pos cheap, forall_mem_map]
    exact unscan_cheapAgrees decodedInner minimal.1 cheap
  · rw [if_neg cheap] at minimal ⊢
    obtain ⟨fields, _, decodedFields⟩ := bind_eq_some_iff.1 decodedInner
    intro token member
    obtain ⟨field, _, part, decodedPart, inside, part_subset⟩ := part_of_mem decodedFields token member
    exact field_cheapAgrees nested decodedPart (fun token there =>
      minimal.2.1 token (part_subset there)) token inside

end

end

/-- With minimal keys the cheap path agrees with the full one everywhere in a trace. -/
theorem trace_cheapAgrees (zlib : Zlib) (depth : Nat) :
    ∀ trace tokens, decodeTrace zlib depth trace = some tokens →
    (∀ token ∈ tokens, token.keysMinimal) → ∀ token ∈ tokens, token.CheapAgrees zlib := by
  induction depth with
  | zero =>
      intro trace tokens decoded
      cases decoded
  | succ depth nested =>
      intro trace tokens decoded minimal token member
      obtain ⟨entries, _, decodedEntries⟩ := bind_eq_some_iff.1 decoded
      obtain ⟨entry, _, part, decodedPart, inside, part_subset⟩ := part_of_mem decodedEntries token member
      exact entry_cheapAgrees nested decodedPart
        (fun token there => minimal token (part_subset there)) token inside

theorem Token.CheapAgrees.dropped_eq {zlib : Zlib} {token : Token} (agrees : token.CheapAgrees zlib) :
    token.dropped = token.isMarkerEvent := by
  cases token with
  | event bytes scanned =>
      change (scanned && isMarker bytes) = isMarker bytes
      cases marked : isMarker bytes with
      | false => simp
      | true => simpa using agrees marked
  | _ => rfl

/-! ### The result -/

/-- For every trace that is decoded and has minimal keys: stripping succeeds, returns the number of events
that are markers, and its output decodes into the tokens of the input without these events. What is
stripped already stays as it is, and the cheap path drops nothing that `_strip_packet` would. -/
theorem strip_preserves {zlib : Zlib} {depth : Nat} {trace : Bytes} {tokens : List Token}
    (decoded : decodeTrace zlib depth trace = some tokens) (minimal : ∀ token ∈ tokens, token.keysMinimal) :
    (∃ out tokens', stripAllocMarkers zlib depth trace = some (out, tokens.countP Token.isMarkerEvent) ∧
      decodeTrace zlib depth out = some tokens' ∧
      List.Forall₂ Token.Same (tokens.filter fun token => !token.isMarkerEvent) tokens' ∧
      stripAllocMarkers zlib depth out = some (out, 0)) ∧
    ∀ root packet markers, Token.entry root packet markers ∈ tokens → cheapPath packet →
      ∀ strip, stripPacket zlib strip packet = some (packet, 0) := by
  have agrees := trace_cheapAgrees zlib depth trace tokens decoded minimal
  refine ⟨?_, fun root packet markers member => agrees _ member⟩
  obtain ⟨out, dropped, tokens', strips, decodedOut, stripped, _⟩ :=
    strip_refines zlib depth trace tokens decoded
  obtain ⟨again, dropped', _, stripsAgain, _, strippedAgain, unchanged⟩ :=
    strip_refines zlib depth out tokens' decodedOut
  have noDrop : dropped' = 0 := strippedAgain.counted.trans stripped.markersIn_eq_zero
  have counted : dropped = tokens.countP Token.isMarkerEvent :=
    stripped.counted.trans (countP_congr fun token member => by rw [(agrees token member).dropped_eq])
  have sameKept : kept tokens = tokens.filter fun token => !token.isMarkerEvent :=
    filter_congr fun token member => by rw [(agrees token member).dropped_eq]
  rw [noDrop, unchanged noDrop] at stripsAgain
  rw [counted] at strips
  exact ⟨out, tokens', strips, decodedOut, sameKept ▸ stripped.same, stripsAgain⟩

/-- An ftrace event with a print in it. -/
def printEvent (ts : Nat) (text : String) : Bytes :=
  encodeVarField 1 ts ++ encodeLenField 3 (encodeLenField 2 (asciiBytes text))

/-- A packet with a bundle of print events. -/
def printPacket (prints : List (Nat × String)) : Bytes :=
  encodeLenField ftraceBundleField (prints.map fun print =>
    encodeLenField ftraceEventField (printEvent print.1 print.2)).flatten

/-- An entry with two events, one with a compressed trace in it, and one that is copied unread. -/
def nestedTrace : Bytes :=
  encodeLenField 1 (printPacket [(10, "S|7|memory_host@0x10.h3.s8|16"), (20, "B|7|frame")]) ++
    encodeLenField 1 (encodeLenField compressedPacketsField
      (Zlib.stored.deflate .raw (encodeLenField 1 (printPacket [(30, "F|7|memory_host@0x10.h3.s8|16")])))) ++
    encodeLenField 1 (encodeVarField 8 100)

theorem strip_preserves_nested :
    ∃ out tokens', stripAllocMarkers .stored 2 nestedTrace = some (out, 2) ∧
      decodeTrace .stored 2 out = some tokens' ∧ stripAllocMarkers .stored 2 out = some (out, 0) := by
  obtain ⟨tokens, decoded, two, minimal⟩ : ∃ tokens ∈ decodeTrace .stored 2 nestedTrace,
      tokens.countP Token.isMarkerEvent = 2 ∧ tokens.all Token.keysMinimal := by decide +kernel
  obtain ⟨⟨out, tokens', strips, decodedOut, _, again⟩, _⟩ := strip_preserves decoded (all_eq_true.1 minimal)
  rw [two] at strips
  exact ⟨out, tokens', strips, decodedOut, again⟩

end MallocHook
