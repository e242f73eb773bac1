/-
Module: MallocHook.Proofs.ModuleBias
Purpose: Whether program counters are resolved with the load bias of the image they lie in. The bias is
  kept by path, and is the least over all loads of the file.
Trusted boundary: the kernel's format of maps
Main exports: ResolvesOwn, NoLowerLoad, resolves_own_bias_iff
-/
import MallocHook.Core.ModuleTable

namespace MallocHook

open List

/-! ### Images -/

/-- A mapping holds an ELF header and its program headers, with a given address of the first segment. -/
structure HoldsElf (memory : ByteMemory) (start stop vaddr : UInt64) : Prop where
  magic : hasMagic memory start = true
  entries : phentsize memory start = kPhdrBytes
  header : kEhdrBytes ≤ stop - start
  inside : (phoff memory start).toNat + phnum memory start * kPhdrBytes ≤ (stop - start).toNat
  load : ∃ k < phnum memory start, ptype memory start k = kPtLoad ∧
    (∀ j < k, ptype memory start j ≠ kPtLoad) ∧ pvaddr memory start k = vaddr

/-- A line of maps, and the image it is part of if it maps a file. -/
structure ImageMapping where
  region : MapsRegion
  image : Option Nat

/-- The mappings of a process whose files are images; a file may be loaded several times. Each image has a
mapping of its start, with its headers, and its bias is what they say. -/
structure ImageLayout where
  memory : ByteMemory
  mappings : List ImageMapping
  file : Nat → List Char
  bias : Nat → UInt64
  ordered : ∀ m ∈ mappings, m.region.start < m.region.stop
  apart : mappings.Pairwise fun a b => a.region.stop ≤ b.region.start ∨ b.region.stop ≤ a.region.start
  oneLine : ∀ m ∈ mappings, '\n' ∉ m.region.path ∧ '\x00' ∉ m.region.path
  backed : ∀ m ∈ mappings, ∀ i, m.image = some i → m.region.path = file i ∧ (file i).head? = some '/'
  unbacked : ∀ m ∈ mappings, m.image = none → m.region.path = [] ∨ m.region.path.head? = some '['
  headed : ∀ m ∈ mappings, ∀ i, m.image = some i → ∃ h ∈ mappings, h.image = some i ∧ h.region.offset = 0 ∧
    h.region.perms.readable = true ∧ ∃ vaddr, HoldsElf memory h.region.start h.region.stop vaddr ∧
      vaddr ≤ h.region.start ∧ bias i = h.region.start - vaddr

/-- The text of the mappings. -/
def ImageLayout.maps (layout : ImageLayout) : List Char :=
  ((layout.mappings.map fun m => m.region.header).map (· ++ ['\n'])).flatten

/-! ### Headers -/

variable (region : MapsRegion)

/-- What a line becomes. -/
def MapsRegion.raw : RawMapping where
  start := region.start
  stop := region.stop
  offset := region.offset
  executable := region.perms.executable
  readable := region.perms.readable
  name := region.path

variable {memory : ByteMemory} {mapping : RawMapping}

theorem HoldsElf.firstLoadVaddr_eq {vaddr : UInt64}
    (elf : HoldsElf memory mapping.start mapping.stop vaddr) (readable : mapping.readable = true) :
    firstLoadVaddr memory mapping = some vaddr := by
  obtain ⟨k, below, isLoad, earlier, value⟩ := elf.load
  have inside := elf.inside
  have offset : phoff memory mapping.start ≤ mapping.stop - mapping.start := by
    rw [UInt64.le_iff_toNat_le]
    omega
  have table : UInt64.ofNat (phnum memory mapping.start * kPhdrBytes) ≤
      mapping.stop - mapping.start - phoff memory mapping.start := by
    have small : phnum memory mapping.start * kPhdrBytes < UInt64.size :=
      Nat.lt_of_le_of_lt (Nat.le_trans (Nat.le_add_left ..) inside) (mapping.stop - mapping.start).toNat_lt
    rw [UInt64.le_iff_toNat_le, UInt64.toNat_sub_of_le _ _ offset, UInt64.toNat_ofNat_of_lt' small]
    omega
  have found : (List.range (phnum memory mapping.start)).find?
    (fun i => ptype memory mapping.start i = kPtLoad) = some k := by
    rw [List.find?_range_eq_some]
    exact ⟨by simpa using isLoad, mem_range.2 below, fun j before => by simpa using earlier j before⟩
  simp only [firstLoadVaddr]
  rw [if_neg (by rw [readable]; simpa using elf.header),
    if_neg (by rw [elf.magic]; exact Bool.true_eq_false.mp),
    if_neg (by rw [elf.entries]; simpa using Nat.ne_zero_of_lt below),
    if_neg (not_or.2 ⟨UInt64.not_lt.2 offset, UInt64.not_lt.2 table⟩), found, Option.map_some, value]

theorem HoldsElf.loadBias_eq {vaddr : UInt64}
    (elf : HoldsElf memory mapping.start mapping.stop vaddr) (readable : mapping.readable = true)
    (low : vaddr ≤ mapping.start) : loadBias memory mapping = mapping.start - vaddr := by
  rw [loadBias, elf.firstLoadVaddr_eq readable]
  exact if_pos low

/-! ### Lines -/

theorem MapsRegion.parseLine_header {region : MapsRegion} (plain : '\x00' ∉ region.path)
    (visible : ∀ c ∈ region.path.head?, Scanf.isSpace c = false) :
    parseLine region.header =
      if region.path = [] ∨ region.path.head? = some '[' then none else some region.raw := by
  have whole : cString region.header = region.header := by
    apply cString_of_not_mem
    rw [header_eq, List.mem_append, not_or]
    exact ⟨not_mem_front (by decide) (by decide), plain⟩
  have scanned : scanModuleLine region.header =
      some (region.start, region.stop, region.perms.text, region.offset, region.fromDev) := by
    rw [scanModuleLine, scanRange_header]
    simp [wordUpTo_fromPerms, unsigned_fromOffset]
  have path : (scanPath region.header region.fromDev).dropWhile (· == ' ') = region.path := by
    have words : (Scanf.word region.fromDev >>= Scanf.word) = some region.tail := by
      rw [word_fromDev]
      exact word_fromInode
    rw [scanPath, words]
    dsimp only
    rw [skipSpace_tail visible]
    cases shown : region.path with
    | nil => rfl
    | cons c rest =>
        have black := visible c (by rw [shown]; rfl)
        apply List.dropWhile_cons_of_neg
        rw [beq_iff_eq]
        rintro rfl
        cases black
  have executable : region.perms.text.contains 'x' = region.perms.executable := by
    obtain ⟨r, w, x, s⟩ := region.perms
    cases r <;> cases w <;> cases x <;> cases s <;> rfl
  have readable : region.perms.text.contains 'r' = region.perms.readable := by
    obtain ⟨r, w, x, s⟩ := region.perms
    cases r <;> cases w <;> cases x <;> cases s <;> rfl
  simp only [parseLine, whole, scanned, path, executable, readable]
  rfl

namespace ImageLayout

variable (layout : ImageLayout)

/-- The mappings of files. -/
def files : List ImageMapping := layout.mappings.filter fun m => m.image.isSome

theorem mem_files {m : ImageMapping} : m ∈ layout.files ↔ m ∈ layout.mappings ∧ ∃ i, m.image = some i := by
  rw [files, mem_filter, Option.isSome_iff_exists]

/-- A path that begins with a given character begins visibly if that is visible. -/
theorem visible_of_head {path : List Char} {first : Char} (begins : path.head? = some first)
    (black : Scanf.isSpace first = false) : ∀ c ∈ path.head?, Scanf.isSpace c = false := by
  rw [begins]
  rintro c here
  rw [← Option.mem_some_iff.1 here]
  exact black

theorem parseLine_mapping {m : ImageMapping} (member : m ∈ layout.mappings) :
    parseLine m.region.header = if m.image.isSome then some m.region.raw else none := by
  have plain := (layout.oneLine m member).2
  cases image : m.image with
  | some i =>
      obtain ⟨path, slash⟩ := layout.backed m member i image
      have begins : m.region.path.head? = some '/' := by rw [path, slash]
      rw [MapsRegion.parseLine_header plain (visible_of_head begins rfl), if_neg]
      · rfl
      · rintro (empty | pseudo)
        · rw [empty] at begins
          cases begins
        · rw [begins] at pseudo
          exact absurd pseudo (by decide)
  | none =>
      have unnamed := layout.unbacked m member image
      rw [MapsRegion.parseLine_header plain, if_pos unnamed]
      · rfl
      · rcases unnamed with empty | pseudo
        · rw [empty]
          exact fun _ here => absurd here (by simp)
        · exact visible_of_head pseudo rfl

theorem parseMaps_maps : parseMaps layout.maps = layout.files.map fun m => m.region.raw := by
  have proper : ∀ line ∈ layout.mappings.map (fun m => m.region.header), '\n' ∉ line := by
    intro line within
    obtain ⟨m, member, rfl⟩ := mem_map.1 within
    rw [MapsRegion.header_eq, mem_append, not_or]
    exact ⟨MapsRegion.not_mem_front (by decide) (by decide), (layout.oneLine m member).1⟩
  rw [parseMaps, contentLines, maps, LineStream.cut_flatten proper, if_pos rfl, filterMap_map, files]
  have each : ∀ mappings : List ImageMapping, (∀ m ∈ mappings, m ∈ layout.mappings) →
      mappings.filterMap (parseLine ∘ fun m => m.region.header) =
        (mappings.filter fun m => m.image.isSome).map fun m => m.region.raw := by
    intro mappings within
    induction mappings with
    | nil => rfl
    | cons m mappings ih =>
        obtain ⟨here, later⟩ := forall_mem_cons.1 within
        rw [filterMap_cons, Function.comp_apply, layout.parseLine_mapping here, filter_cons, ih later]
        cases m.image <;> rfl
  exact each layout.mappings fun _ member => member

end ImageLayout

/-! ### Biases -/

/-- The biases that the mappings of the starts of files give, by path. -/
def baseLog (memory : ByteMemory) (mappings : List RawMapping) : List (List Char × UInt64) :=
  (mappings.filter fun m => decide (m.offset = 0) && m.readable).map fun m => (m.name, loadBias memory m)

theorem moduleBase_eq (memory : ByteMemory) (mappings : List RawMapping) :
    moduleBase memory mappings = Tally.least (baseLog memory mappings) := by
  rw [moduleBase, Tally.least, baseLog]
  generalize (∅ : AList fun _ : List Char => UInt64) = base
  induction mappings generalizing base with
  | nil => rfl
  | cons m mappings ih =>
      rw [foldl_cons, ih, filter_cons, noteBase]
      by_cases start : m.offset = 0
      · cases m.readable <;> simp [start]
      · simp [start]

namespace ImageLayout

variable (layout : ImageLayout)

/-- What the table keeps for a file. -/
def base : AList fun _ : List Char => UInt64 :=
  moduleBase layout.memory (layout.files.map fun m => m.region.raw)

theorem mem_baseLog {name : List Char} {bias : UInt64} :
    (name, bias) ∈ baseLog layout.memory (layout.files.map fun m => m.region.raw) ↔
      ∃ m ∈ layout.files, m.region.offset = 0 ∧ m.region.perms.readable = true ∧ m.region.path = name ∧
        loadBias layout.memory m.region.raw = bias := by
  simp only [baseLog, mem_map, mem_filter, Bool.and_eq_true, decide_eq_true_eq, Prod.mk.injEq]
  constructor
  · rintro ⟨raw, ⟨⟨m, member, rfl⟩, offset, readable⟩, path, bias⟩
    exact ⟨m, member, offset, readable, path, bias⟩
  · rintro ⟨m, member, offset, readable, path, bias⟩
    exact ⟨m.region.raw, ⟨⟨m, member, rfl⟩, offset, readable⟩, path, bias⟩

end ImageLayout

/-- No mapping of the start of the file of an executable mapping gives a smaller bias than that of its
image. -/
def NoLowerLoad (layout : ImageLayout) : Prop :=
  ∀ m ∈ layout.files, m.region.perms.executable = true → ∀ i, m.image = some i →
    ∀ h ∈ layout.files, h.region.path = m.region.path → h.region.offset = 0 →
      h.region.perms.readable = true →
      layout.bias i ≤ loadBias layout.memory h.region.raw

/-- The range of a mapping has the bias of the image if and only if no mapping gives a smaller one. -/
theorem ImageLayout.loadBias_eq_iff (layout : ImageLayout) {m : ImageMapping} (member : m ∈ layout.files)
    {i : Nat} (image : m.image = some i) :
    (moduleRange layout.base m.region.raw).loadBias = layout.bias i ↔
      ∀ h ∈ layout.files, h.region.path = m.region.path → h.region.offset = 0 →
      h.region.perms.readable = true → layout.bias i ≤ loadBias layout.memory h.region.raw := by
  obtain ⟨inMappings, -⟩ := layout.mem_files.1 member
  obtain ⟨h, hMember, hImage, hOffset, hReadable, vaddr, elf, low, bias⟩ :=
    layout.headed m inMappings i image
  have path : h.region.path = m.region.path := by
    rw [(layout.backed h hMember i hImage).1, (layout.backed m inMappings i image).1]
  have own : (m.region.path, layout.bias i) ∈ baseLog layout.memory
    (layout.files.map fun m => m.region.raw) :=
    layout.mem_baseLog.2 ⟨h, layout.mem_files.2 ⟨hMember, i, hImage⟩, hOffset, hReadable, path,
      (elf.loadBias_eq hReadable low).trans bias.symm⟩
  change (layout.base.lookup m.region.path).getD _ = _ ↔ _
  rw [ImageLayout.base, moduleBase_eq]
  rcases Tally.lookup_least (baseLog layout.memory (layout.files.map fun m => m.region.raw))
    m.region.path with
    ⟨-, absent⟩ | ⟨least, lookup, occurs, smallest⟩
  · exact absurd own (absent _)
  · rw [lookup, Option.getD_some]
    constructor
    · rintro rfl other inFiles same offset readable
      exact smallest _ (layout.mem_baseLog.2 ⟨other, inFiles, offset, readable, same, rfl⟩)
    · intro lowest
      obtain ⟨other, inFiles, offset, readable, same, value⟩ := layout.mem_baseLog.1 occurs
      apply UInt64.le_antisymm (smallest _ own)
      rw [← value]
      exact lowest other inFiles same offset readable

/-! ### Resolving -/

/-- A program counter lies in a mapping. -/
def MapsRegion.Holds (pc : UInt64) : Prop := region.start ≤ pc ∧ pc < region.stop

/-- Program counters are resolved in executable mappings of files, to their path and the address by the
bias of their image. -/
structure ResolvesOwn (layout : ImageLayout) (ranges : List ModuleRange) : Prop where
  inside : ∀ m ∈ layout.files, m.region.perms.executable = true → ∀ i, m.image = some i →
    ∀ pc, m.region.Holds pc → resolve ranges pc = some (pc - layout.bias i, m.region.path)
  outside : ∀ pc, (∀ m ∈ layout.files, m.region.perms.executable = true → ¬ m.region.Holds pc) →
    resolve ranges pc = none

section

variable {layout : ImageLayout} {ranges : List ModuleRange}
  (builds : BuildsModuleTable layout.memory (some layout.maps) ranges)
include builds

variable {range : ModuleRange}

theorem mem_table :
    range ∈ ranges ↔ ∃ m ∈ layout.files, m.region.perms.executable = true ∧
      moduleRange layout.base m.region.raw = range := by
  rw [builds.perm.mem_iff, moduleRanges, Option.getD_some, layout.parseMaps_maps]
  simp only [mem_map, mem_filter]
  constructor
  · rintro ⟨raw, ⟨⟨m, member, rfl⟩, executable⟩, same⟩
    exact ⟨m, member, executable, same⟩
  · rintro ⟨m, member, executable, same⟩
    exact ⟨m.region.raw, ⟨⟨m, member, rfl⟩, executable⟩, same⟩

variable {pc : UInt64}

/-- The table is sorted, and its ranges are not empty and do not overlap. -/
theorem locate_table :
    RangeTable.locate ModuleRange.start ModuleRange.stop ranges pc = some range ↔
      range ∈ ranges ∧ range.start ≤ pc ∧ pc < range.stop := by
  apply RangeTable.locate_eq_some_iff
  · apply builds.ordered.imp
    intro a b notAfter
    exact UInt64.not_lt.1 (of_decide_eq_false notAfter)
  · have symmetric : Std.Symm (RangeTable.Apart ModuleRange.start ModuleRange.stop) := ⟨fun _ _ => Or.symm⟩
    apply (builds.perm.pairwise_iff fun h => symmetric.symm _ _ h).2
    rw [moduleRanges, Option.getD_some, layout.parseMaps_maps, pairwise_map]
    apply List.Pairwise.filter
    rw [pairwise_map]
    exact layout.apart.filter _
  · intro other member
    obtain ⟨m, inFiles, -, rfl⟩ := (mem_table builds).1 member
    exact layout.ordered m (layout.mem_files.1 inFiles).1

theorem resolve_holds {m : ImageMapping} (member : m ∈ layout.files)
    (executable : m.region.perms.executable = true) (holds : m.region.Holds pc) :
    resolve ranges pc = some (pc - (moduleRange layout.base m.region.raw).loadBias, m.region.path) := by
  have found := (locate_table builds).2 ⟨(mem_table builds).2 ⟨m, member, executable, rfl⟩, holds⟩
  rw [resolve, found]
  rfl

theorem resolve_outside
    (outside : ∀ m ∈ layout.files, m.region.perms.executable = true → ¬ m.region.Holds pc) :
    resolve ranges pc = none := by
  rw [resolve, Option.map_eq_none_iff, Option.eq_none_iff_forall_not_mem]
  intro range found
  obtain ⟨member, holds⟩ := (locate_table builds).1 found
  obtain ⟨m, inFiles, executable, rfl⟩ := (mem_table builds).1 member
  exact outside m inFiles executable holds

theorem resolvesOwn_iff : ResolvesOwn layout ranges ↔ NoLowerLoad layout := by
  constructor
  · intro own m member executable i image
    apply (layout.loadBias_eq_iff member image).1
    have first : m.region.Holds m.region.start :=
      ⟨UInt64.le_refl _, layout.ordered m (layout.mem_files.1 member).1⟩
    have result := own.inside m member executable i image m.region.start first
    rw [resolve_holds builds member executable first, Option.some.injEq, Prod.mk.injEq] at result
    exact (UInt64.sub_right_inj _).1 result.1
  · intro lowest
    constructor
    · intro m member executable i image pc holds
      rw [resolve_holds builds member executable holds,
        (layout.loadBias_eq_iff member image).2 (lowest m member executable i image)]
    · intro pc outside
      exact resolve_outside builds outside

end

instance : Std.Total fun a b : ModuleRange => startsFirst b a = false where
  total a b := by
    simp only [startsFirst, decide_eq_false_iff_not, UInt64.not_lt]
    exact UInt64.le_total ..

instance : IsTrans ModuleRange fun a b => startsFirst b a = false where
  trans a b c := by
    simp only [startsFirst, decide_eq_false_iff_not, UInt64.not_lt]
    exact UInt64.le_trans

/-- Whatever table is built from the mappings of a process: its counters are resolved with the biases of
their own images if and only if no mapping of the start of the same file as that of an executable mapping
gives a bias below that of its image. -/
theorem resolves_own_bias_iff (layout : ImageLayout) :
    (∀ ranges, BuildsModuleTable layout.memory (some layout.maps) ranges → ResolvesOwn layout ranges) ↔
      NoLowerLoad layout := by
  constructor
  · intro own
    have builds := SortOutcome.insertionSort startsFirst (moduleRanges layout.memory (some layout.maps))
    exact (resolvesOwn_iff builds).1 (own _ builds)
  · intro lowest ranges builds
    exact (resolvesOwn_iff builds).2 lowest

/-! ### A library loaded twice -/

/-- The bytes of a file with an ELF header, one program header behind it and a first segment at 0. -/
def elfByte : Nat → UInt8
  | 0 => 0x7f
  | 1 => 0x45
  | 2 => 0x4c
  | 3 => 0x46
  | 32 => 64
  | 54 => 56
  | 56 => 1
  | 64 => 1
  | _ => 0

/-- Where the two loads are. -/
def twiceStart : Nat → UInt64
  | 0 => 0x10000
  | _ => 0x30000

def twiceMemory : ByteMemory := fun address =>
  if address < 0x20000 then elfByte (address - 0x10000).toNat else elfByte (address - 0x30000).toNat

def twiceFile : List Char := "/system/lib64/liballoc_hook.so".toList

def twiceMapping (i : Nat) : ImageMapping where
  image := some i
  region :=
    { start := twiceStart i
      stop := twiceStart i + 0x2000
      perms := ⟨true, false, true, false⟩
      offset := 0
      devMajor := 0xfd
      devMinor := 0
      inode := 519
      width := 8
      padding := 1
      path := twiceFile
      apart := fun _ => Nat.one_pos }

theorem twice_elf : ∀ i < 2, HoldsElf twiceMemory (twiceStart i) (twiceStart i + 0x2000) 0 := by
  intro i below
  have cases_ : i = 0 ∨ i = 1 := by omega
  rcases cases_ with rfl | rfl
  all_goals
    refine ⟨by decide +kernel, by decide +kernel, by decide +kernel, by decide +kernel,
      0, by decide +kernel, by decide +kernel, ?_, by decide +kernel⟩
    intro j before
    exact absurd before (Nat.not_lt_zero j)

/-- A library in two namespaces. -/
def twice : ImageLayout where
  memory := twiceMemory
  mappings := [twiceMapping 0, twiceMapping 1]
  file := fun _ => twiceFile
  bias := twiceStart
  ordered := by decide
  apart := by decide
  oneLine := by decide
  backed := by
    intro m member i image
    rw [List.mem_pair] at member
    rcases member with rfl | rfl <;> exact ⟨rfl, by decide⟩
  unbacked := by
    intro m member image
    rw [List.mem_pair] at member
    rcases member with rfl | rfl <;> cases image
  headed := by
    intro m member i image
    rw [List.mem_pair] at member
    rcases member with rfl | rfl
    · obtain rfl := Option.some.inj image
      exact ⟨twiceMapping 0, by simp, rfl, rfl, rfl, 0, twice_elf 0 (by decide), by decide, by decide⟩
    · obtain rfl := Option.some.inj image
      exact ⟨twiceMapping 1, by simp, rfl, rfl, rfl, 0, twice_elf 1 (by decide), by decide, by decide⟩

/-- A counter in the second load is resolved with the bias of the first. -/
theorem second_load_resolved_with_first_bias :
    BuildsModuleTable twice.memory (some twice.maps) (moduleRanges twice.memory (some twice.maps)) ∧
      (twiceMapping 1).region.Holds 0x30040 ∧ 0x30040 - twice.bias 1 = 0x40 ∧
      resolve (moduleRanges twice.memory (some twice.maps)) 0x30040 = some (0x20040, twiceFile) := by
  exact ⟨⟨.refl _, by decide +kernel⟩, ⟨by decide, by decide⟩, by decide, by decide +kernel⟩

end MallocHook
