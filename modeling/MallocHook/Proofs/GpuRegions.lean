/-
Module: MallocHook.Proofs.GpuRegions
Purpose: Which regions the readers of maps and smaps take for the GPU's, and what each adds to the
  total: what its size has beyond its residency, which wraps from 2 ^ 54 KiB on.
Trusted boundary: NamesDevice, OrderedRegion, ShownRegion
Main exports: mapsLinePath_header, gpu_regions_classified
-/
import MallocHook.Core.ProcReaders
import MallocHook.Proofs.SmapsText

namespace MallocHook

open List
open UInt64 (toNat_sub_of_le)

/-! ### Names of the device -/

/-- One of the names of the device, or one of them after the node was removed. -/
def NamesDevice (path : List Char) : Prop :=
  ∃ node ∈ kGpuNodePaths, path = node.toList ∨ path = node.toList ++ " (deleted)".toList

instance : DecidablePred NamesDevice := fun path =>
  inferInstanceAs (Decidable (∃ node ∈ kGpuNodePaths, path = node.toList ∨
    path = node.toList ++ " (deleted)".toList))

theorem isGpuNodePath_iff (path : CString) : isGpuNodePath path = true ↔ NamesDevice path := by
  simp only [isGpuNodePath, NamesDevice, any_eq_true, Bool.and_eq_true, Bool.or_eq_true, beq_iff_eq,
    isPrefixOf_iff_prefix]
  refine exists_congr fun node => and_congr_right fun _ => ⟨?_, ?_⟩
  · rintro ⟨⟨rest, rfl⟩, ending⟩
    rw [drop_left] at ending
    rcases ending with rfl | rfl
    · exact .inl (append_nil _)
    · exact .inr rfl
  · rintro (rfl | rfl)
    · exact ⟨prefix_rfl, .inl drop_length⟩
    · exact ⟨prefix_append .., .inr drop_left⟩

/-! ### Headers -/

/-- A region with its addresses in order, and with a path, if there is one, that is absolute or in
brackets. -/
structure OrderedRegion extends MapsRegion where
  ordered : start < stop
  oneLine : '\n' ∉ path
  begins : ∀ c ∈ path.head?, c = '/' ∨ c = '['

theorem isFieldBlank_of_black {c : Char} (black : Scanf.isSpace c = false) : isFieldBlank c = false := by
  rw [← Bool.not_eq_true, isFieldBlank, Bool.or_eq_true, beq_iff_eq, beq_iff_eq]
  rintro (rfl | rfl) <;> cases black

/-- A field is left at the first blank. -/
theorem skipFields_append {word rest : List Char} (black : ∀ c ∈ word, Scanf.isSpace c = false)
    (ends : ∀ c ∈ rest.head?, c = ' ') (fields : Nat) :
    skipFields (fields + 1) (word ++ rest) =
      if rest.dropWhile isFieldBlank = [] then none
      else skipFields fields (rest.dropWhile isFieldBlank) := by
  have left : (word ++ rest).dropWhile (fun c => !isFieldBlank c) = rest := by
    rw [dropWhile_append_of_pos fun c member => by simp [isFieldBlank_of_black (black c member)]]
    cases rest with
    | nil => rfl
    | cons c rest =>
        rw [ends c rfl]
        exact dropWhile_cons_of_neg (by decide)
  rw [skipFields, left]

theorem dropWhile_isFieldBlank {text : List Char} (visible : ∀ c ∈ text.head?, Scanf.isSpace c = false)
    (blanks : Nat) : (List.replicate blanks ' ' ++ text).dropWhile isFieldBlank = text := by
  rw [dropWhile_append_of_pos fun c member => by rw [eq_of_mem_replicate member]; rfl]
  cases text with
  | nil => rfl
  | cons c text => exact dropWhile_cons_of_neg (by simp [isFieldBlank_of_black (visible c rfl)])

theorem skipFields_words {words : List (List Char)} {rest : List Char}
    (black : ∀ word ∈ words, word ≠ [] ∧ ∀ c ∈ word, Scanf.isSpace c = false) (nonempty : rest ≠ [])
    (begins : ∀ c ∈ rest.head?, Scanf.isSpace c = false) (fields : Nat) :
    skipFields (fields + words.length) (words.flatMap (· ++ [' ']) ++ rest) = skipFields fields rest := by
  induction words with
  | nil => rfl
  | cons word words ih =>
      obtain ⟨here, there⟩ := forall_mem_cons.1 black
      let later := words.flatMap (· ++ [' ']) ++ rest
      have next : (' ' :: later).dropWhile isFieldBlank = later :=
        dropWhile_isFieldBlank (MapsRegion.head_words there begins) 1
      have skipped := @skipFields_append word (' ' :: later) here.2 (by simp) (fields + words.length)
      rw [next, if_neg (by simp [later, nonempty]), ih there] at skipped
      rw [← skipped]
      simp [later, Nat.add_assoc]

namespace OrderedRegion

variable (region : OrderedRegion)

theorem path_visible : ∀ c ∈ region.path.head?, Scanf.isSpace c = false := by
  intro c here
  rcases region.begins c here with rfl | rfl <;> rfl

/-- The sixth field of a header is the path, if there is one. -/
theorem mapsLinePath_header :
    mapsLinePath region.header = if region.path = [] then none else some region.path := by
  have inode := Scanf.numeral_black (by decide : 2 ≤ 10) (by decide) 0 region.inode.toNat
  have nonempty := (Scanf.numeral_spec (by decide : 2 ≤ 10) (by decide) 0 region.inode.toNat).2.2
  rw [MapsRegion.header_words, mapsLinePath]
  refine (skipFields_words MapsRegion.words_black (by simp [nonempty]) MapsRegion.head_inode 1).trans ?_
  rw [skipFields_append inode (MapsRegion.tail_begins _), MapsRegion.tail,
    dropWhile_isFieldBlank region.path_visible]
  rfl

theorem namesGpuNode_header : namesGpuNode region.header = decide (NamesDevice region.path) := by
  rw [namesGpuNode, mapsLinePath_header, Bool.eq_iff_iff, decide_eq_true_iff, ← isGpuNodePath_iff]
  split
  · next anonymous =>
      rw [anonymous]
      decide
  · rfl

theorem mapped_header : (gpuMappedBytesFromMapsLine region.header).toNat =
    if NamesDevice region.path then region.stop.toNat - region.start.toNat else 0 := by
  rw [gpuMappedBytesFromMapsLine, MapsRegion.scanRange_header]
  dsimp only
  rw [if_neg (UInt64.not_le.2 region.ordered), namesGpuNode_header]
  by_cases device : NamesDevice region.path
  · rw [if_neg (by simp [device]), if_pos device, toNat_sub_of_le _ _ (UInt64.le_of_lt region.ordered)]
  · rw [if_pos (by simp [device]), if_neg device]
    rfl

end OrderedRegion

/-! ### Fields -/

/-- A name that begins with a letter is no range, unless it has a dash. -/
theorem scanRange_key {key : List Char} (letter : key.head?.any Char.isAlpha = true) (clear : '-' ∉ key)
    (value : List Char) : scanRange (key ++ ':' :: value) = none := by
  cases key with
  | nil => cases letter
  | cons c key =>
      have bound := le_of_isAlpha letter
      have visible : Scanf.isSpace c = false := by
        simp only [Scanf.isSpace, Bool.or_eq_false_iff, beq_eq_false_iff_ne, Bool.and_eq_false_iff,
          decide_eq_false_iff_not]
        refine ⟨?_, .inr (by omega)⟩
        rintro rfl
        cases letter
      have skipped : Scanf.skipSpace (c :: key ++ ':' :: value) = c :: key ++ ':' :: value :=
        Scanf.skipSpace_of_black (by simpa using visible)
      have unsigned : Scanf.sign (c :: key ++ ':' :: value) = (false, c :: key ++ ':' :: value) := by
        refine Scanf.sign_of_ne fun d here => ?_
        obtain rfl : c = d := Option.some.inj here
        refine ⟨fun minus => clear (minus ▸ mem_cons_self), ?_⟩
        rintro rfl
        cases letter
      have unmarked : Scanf.stripHexMark (c :: key ++ ':' :: value) = c :: key ++ ':' :: value := by
        unfold Scanf.stripHexMark
        split
        · next same =>
            obtain ⟨rfl, -⟩ := List.cons.inj same
            cases letter
        · next same =>
            obtain ⟨rfl, -⟩ := List.cons.inj same
            cases letter
        · rfl
      -- the digits end at the colon, or at a character of the name that is no dash
      have ends : ∀ text : List Char, '-' ∉ text →
          Scanf.literal '-' ((text ++ ':' :: value).dropWhile (Scanf.isDigit 16)) = none := by
        intro text plain
        induction text with
        | nil => rfl
        | cons d text ih =>
            rw [mem_cons, not_or] at plain
            cases digit : Scanf.isDigit 16 d with
            | true =>
                rw [cons_append, dropWhile_cons_of_pos digit]
                exact ih plain.2
            | false =>
                rw [cons_append, dropWhile_cons_of_neg (by simp [digit]), Scanf.literal,
                  if_neg (Ne.symm plain.1)]
      cases found : Scanf.unsigned 16 (c :: key ++ ':' :: value) with
      | none =>
          rw [scanRange, found]
          rfl
      | some read =>
          have left : read.2 = (c :: key ++ ':' :: value).dropWhile (Scanf.isDigit 16) := by
            simp only [Scanf.unsigned, Scanf.number, skipped, unsigned, unmarked, if_true] at found
            obtain ⟨_, here, rfl⟩ := Option.map_eq_some_iff.1 found
            split at here <;> cases here
            rfl
          rw [scanRange, found]
          change (Scanf.literal '-' read.2).bind _ = none
          rw [left, ends _ clear]
          rfl

/-- A field that is no range: the name of another field has no dash. -/
def SmapsField.Plain : SmapsField → Prop
  | .other field => '-' ∉ field.key
  | _ => True

theorem SmapsField.Plain.scanRange {field : SmapsField} (plain : field.Plain) :
    scanRange field.line = none := by
  cases field with
  | rss blanks kb =>
      exact scanRange_key (by decide : "Rss".toList.head?.any Char.isAlpha = true) (by decide) _
  | size blanks kb =>
      exact scanRange_key (by decide : "Size".toList.head?.any Char.isAlpha = true) (by decide) _
  | other field => exact scanRange_key field.letter plain _

/-- The residency that a line shows, in KiB. -/
theorem scanRss_sizeLine {kb : UInt64} (small : kb.toNat < 2 ^ 54) (blanks : Nat) :
    scanRss (SmapsField.sizeLine "Rss:" blanks kb) = some (Int.ofNat kb.toNat) := by
  have read : Scanf.long (List.replicate blanks ' ' ++ (Scanf.numeral 10 0 kb.toNat ++ " kB".toList)) =
      some (Int.ofNat kb.toNat, " kB".toList) := by
    induction blanks with
    | zero => exact Scanf.long_numeral (by omega) (MapsRegion.endsNumber_cons (by decide) _)
    | succ blanks ih => exact (Scanf.long_cons rfl _).trans ih
  exact congrArg (·.map Prod.fst) read

theorem toNat_kibibytes {kb : Nat} (small : kb < 2 ^ 54) : (kibibytes (Int.ofNat kb)).toNat = kb * 1024 := by
  have word : (UInt64.ofInt (Int.ofNat kb)).toNat = kb := by
    rw [UInt64.ofInt, UInt64.toNat_ofNat', Int.ofNat_eq_natCast]
    omega
  rw [kibibytes, UInt64.toNat_mul, word]
  exact Nat.mod_eq_of_lt (by change kb * 1024 < _; omega)

/-! ### Lines of a region -/

namespace GpuMmapState

/-- A header starts a region, whatever was before. -/
theorem line_header (s : GpuMmapState) (region : OrderedRegion) :
    s.line region.header =
      { total := s.total, scan := ⟨decide (NamesDevice region.path), region.stop - region.start⟩ } := by
  rw [line, gpuMmapBytesFromSmapsLine, MapsRegion.scanRange_header]
  simp only [region.namesGpuNode_header, if_pos region.ordered, UInt64.add_zero]

/-- A field counts for nothing outside of a region of the device, and only a residency counts in it. -/
theorem line_field {s : GpuMmapState} {field : SmapsField} (plain : field.Plain)
    (skipped : s.scan.inGpuRegion = false ∨ field.rssKb = none) : s.line field.line = s := by
  have noRss : s.scan.inGpuRegion = false ∨ "Rss:".toList.isPrefixOf field.line = false := by
    refine skipped.imp_right fun other => ?_
    cases field with
    | rss blanks kb => cases other
    | size blanks kb => rfl
    | other field => exact OtherField.not_prefix (by decide) field.another.1
  rw [line, gpuMmapBytesFromSmapsLine, plain.scanRange]
  simp only [if_pos noRss, UInt64.add_zero]

/-- The first residency of a region closes it. -/
theorem line_rss {s : GpuMmapState} (inside : s.scan.inGpuRegion = true) {kb : UInt64}
    (small : kb.toNat < 2 ^ 54) (blanks : Nat) : s.line (SmapsField.rss blanks kb).line =
      { total := s.total + UInt64.ofNat (s.scan.regionSize.toNat - kb.toNat * 1024)
        scan := { s.scan with inGpuRegion := false } } := by
  have begins : "Rss:".toList.isPrefixOf (SmapsField.rss blanks kb).line = true :=
    isPrefixOf_iff_prefix.2 (prefix_append ..)
  have resident := toNat_kibibytes small
  have beyond : (if s.scan.regionSize > kibibytes (Int.ofNat kb.toNat) then
      s.scan.regionSize - kibibytes (Int.ofNat kb.toNat) else 0) =
        UInt64.ofNat (s.scan.regionSize.toNat - kb.toNat * 1024) := by
    rw [← resident]
    split
    · next above =>
        rw [← toNat_sub_of_le _ _ (UInt64.le_of_lt above), UInt64.ofNat_toNat]
    · next below =>
        rw [Nat.sub_eq_zero_of_le (UInt64.le_iff_toNat_le.1 (UInt64.not_lt.1 below))]
        rfl
  have notNegative : ¬ Int.ofNat kb.toNat < 0 := Int.not_lt.2 (Int.natCast_nonneg _)
  have noRange : scanRange (SmapsField.rss blanks kb).line = none := SmapsField.Plain.scanRange trivial
  have read : scanRss (SmapsField.rss blanks kb).line = some (Int.ofNat kb.toNat) :=
    scanRss_sizeLine small blanks
  rw [line, gpuMmapBytesFromSmapsLine, noRange]
  simp only [inside, begins, read, Bool.true_eq_false, or_self, if_false, if_neg notNegative, beyond]

section

variable {fields : List SmapsField} (plain : ∀ field ∈ fields, field.Plain) {s : GpuMmapState}
include plain

theorem foldl_outside (outside : s.scan.inGpuRegion = false) :
    (fields.map SmapsField.line).foldl line s = s := by
  induction fields with
  | nil => rfl
  | cons field fields ih =>
      obtain ⟨here, there⟩ := forall_mem_cons.1 plain
      rw [map_cons, foldl_cons, line_field here (.inl outside), ih there]

/-- The fields of a region add what it has beyond its first residency. -/
theorem foldl_inside (inside : s.scan.inGpuRegion = true)
    (small : ∀ kb ∈ (fields.filterMap SmapsField.rssKb).head?, kb.toNat < 2 ^ 54) :
    ((fields.map SmapsField.line).foldl line s).total = s.total + UInt64.ofNat
      ((fields.filterMap SmapsField.rssKb).head?.elim 0 fun kb =>
      s.scan.regionSize.toNat - kb.toNat * 1024) := by
  induction fields with
  | nil => exact (UInt64.add_zero _).symm
  | cons field fields ih =>
      obtain ⟨here, there⟩ := forall_mem_cons.1 plain
      rw [map_cons, foldl_cons]
      cases shown : field.rssKb with
      | none =>
          rw [filterMap_cons_none shown] at small ⊢
          rw [line_field here (.inr shown), ih there small]
      | some kb =>
          obtain ⟨blanks, rfl⟩ : ∃ blanks, field = .rss blanks kb := by
            cases field <;> cases shown
            exact ⟨_, rfl⟩
          rw [filterMap_cons_some shown] at small ⊢
          rw [line_rss inside (small kb rfl), foldl_outside there rfl]
          rfl

end

end GpuMmapState

/-! ### The results -/

/-- A region as smaps shows it. -/
structure ShownRegion extends OrderedRegion where
  fields : List SmapsField
  plain : ∀ field ∈ fields, field.Plain

namespace ShownRegion

variable (region : ShownRegion)

def lines : List (List Char) := region.header :: region.fields.map SmapsField.line

/-- The first residency, in KiB. -/
def rssKb : Option UInt64 := (region.fields.filterMap SmapsField.rssKb).head?

/-- What the region has beyond its residency, in bytes. -/
def beyond : Nat := region.rssKb.elim 0 fun kb => region.stop.toNat - region.start.toNat - kb.toNat * 1024

end ShownRegion

/-- The lines of a region add what it has beyond its residency, if it is the device's. -/
theorem GpuMmapState.foldl_region (region : ShownRegion)
    (small : NamesDevice region.path → ∀ kb ∈ region.rssKb, kb.toNat < 2 ^ 54) (s : GpuMmapState) :
    (region.lines.foldl GpuMmapState.line s).total =
      s.total + UInt64.ofNat (if NamesDevice region.path then region.beyond else 0) := by
  rw [ShownRegion.lines, foldl_cons, line_header]
  by_cases device : NamesDevice region.path
  · rw [foldl_inside region.plain (decide_eq_true device) (small device), if_pos device,
      toNat_sub_of_le _ _ (UInt64.le_of_lt region.ordered)]
    rfl
  · rw [foldl_outside region.plain (decide_eq_false device), if_neg device]
    exact (UInt64.add_zero _).symm

/-- A line of maps counts the size of its region exactly if the path is a name of the device. The lines of
smaps add up what the regions of the device have beyond their residency, if their residencies in bytes fit a
`size_t`. -/
theorem gpu_regions_classified :
    (∀ region : OrderedRegion, (gpuMappedBytesFromMapsLine region.header).toNat =
      if NamesDevice region.path then region.stop.toNat - region.start.toNat else 0) ∧
    ∀ (regions : List ShownRegion) (s : GpuMmapState),
      (∀ region ∈ regions, NamesDevice region.path → ∀ kb ∈ region.rssKb, kb.toNat < 2 ^ 54) →
      ((regions.flatMap ShownRegion.lines).foldl GpuMmapState.line s).total =
        s.total + UInt64.ofNat ((regions.filter fun region => NamesDevice region.path).map
        ShownRegion.beyond).sum := by
  refine ⟨OrderedRegion.mapped_header, fun regions s small => ?_⟩
  induction regions generalizing s with
  | nil => exact (UInt64.add_zero _).symm
  | cons region regions ih =>
      obtain ⟨here, there⟩ := forall_mem_cons.1 small
      rw [flatMap_cons, foldl_append, ih _ there, GpuMmapState.foldl_region region here, UInt64.add_assoc,
        ← UInt64.ofNat_add]
      by_cases device : NamesDevice region.path
      · rw [filter_cons_of_pos (by simpa using device), if_pos device, map_cons, sum_cons]
      · rw [filter_cons_of_neg (by simpa using device), if_neg device, Nat.zero_add]

/-- A page of the device with this residency. -/
def kgslRegion (kb : UInt64) : ShownRegion where
  start := 0x1000
  stop := 0x2000
  perms := ⟨true, true, false, true⟩
  offset := 0
  devMajor := 0
  devMinor := 0x10
  inode := 7
  width := 8
  padding := 3
  path := "/dev/kgsl-3d0".toList
  apart _ := by decide
  ordered := by decide
  oneLine := by decide
  begins := by simp
  fields := [.rss 9 kb]
  plain := by simp [SmapsField.Plain]

theorem gpu_regions_classified_kgsl :
    (gpuMappedBytesFromMapsLine (kgslRegion 1).header).toNat = 0x1000 ∧
      (([kgslRegion 1, kgslRegion 8].flatMap ShownRegion.lines).foldl GpuMmapState.line {}).total =
      0xc00 := by
  have small {kb : UInt64} (fits : kb.toNat < 2 ^ 54) (_ : NamesDevice (kgslRegion kb).path) :
      ∀ kb' ∈ (kgslRegion kb).rssKb, kb'.toNat < 2 ^ 54 := fun _ found => Option.some.inj found ▸ fits
  exact ⟨(gpu_regions_classified.1 _).trans (by decide +kernel),
    (gpu_regions_classified.2 _ _ (forall_mem_cons.2
    ⟨small (by decide), forall_mem_singleton.2 (small (by decide))⟩)).trans (by decide +kernel)⟩

/-- A residency whose bytes do not fit a `size_t` counts as none at all. -/
theorem residency_wraps : (kgslRegion (2 ^ 54)).beyond = 0 ∧
    ((kgslRegion (2 ^ 54)).lines.foldl GpuMmapState.line {}).total = 0x1000 := by decide +kernel

end MallocHook
