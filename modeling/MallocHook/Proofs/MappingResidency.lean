/-
Module: MallocHook.Proofs.MappingResidency
Purpose: To which mapping the residency that smaps reports is charged: to the name of the last header
  that begins with a decimal digit.
Trusted boundary: none
Main exports: Recognised, own_mapping_charged_iff, high_address_charged_elsewhere
-/
import MallocHook.Proofs.SmapsText

namespace MallocHook

open List

/-! ### The log of charges -/

/-- A charge: the mapping, and the residency and the size. -/
abbrev Charge := String × (UInt64 × UInt64)

/-- What the scan charges for some regions, from the mapping it is in. -/
def chargeLog (current : String) : List SmapsRegion → List Charge
  | [] => []
  | region :: rest =>
      region.amounts.map (nameAfter current region.header, ·) ++ chargeLog
        (nameAfter current region.header) rest

/-- What a log charges to mappings of files, or to the others. -/
def kindSum (file : Bool) (log : List Charge) : UInt64 × UInt64 :=
  Tally.sumFor (log.map fun charge => (isFileName charge.1, charge.2)) file

/-- The sums of the scan are those of a log. -/
structure Logged (s : MappingScan) (log : List Charge) : Prop where
  byMapping : s.byMapping = Tally.book log
  file : s.file = kindSum true log
  anon : s.anon = kindSum false log

theorem kindSum_append_singleton (file : Bool) (log : List Charge) (charge : Charge) :
    kindSum file (log ++ [charge]) =
      if isFileName charge.1 = file then kindSum file log + charge.2 else kindSum file log := by
  rw [kindSum, map_append, Tally.sumFor_append, ← kindSum]
  by_cases kind : isFileName charge.1 = file
  · simp [Tally.sumFor, kind]
  · simp [Tally.sumFor, kind]

variable {s : MappingScan} {log : List Charge}

theorem Logged.charge (logged : Logged s log) (amount : UInt64 × UInt64) :
    Logged (s.charge amount) (log ++ [(s.current, amount)]) := by
  constructor
  · rw [Tally.book_append_singleton, ← logged.byMapping]
    rfl
  · rw [kindSum_append_singleton, ← logged.file]
    rfl
  · rw [kindSum_append_singleton, ← logged.anon]
    change (if isFileName s.current then s.anon else s.anon + amount) = _
    cases isFileName s.current <;> rfl

theorem Logged.charges (logged : Logged s log) (amounts : List (UInt64 × UInt64)) :
    Logged (amounts.foldl MappingScan.charge s) (log ++ amounts.map (s.current, ·)) ∧
      (amounts.foldl MappingScan.charge s).current = s.current := by
  induction amounts generalizing s log with
  | nil =>
      rw [map_nil, append_nil]
      exact ⟨logged, rfl⟩
  | cons amount amounts ih =>
      have later := ih (logged.charge amount)
      rwa [append_assoc] at later

theorem foldl_line_fields (fields : List SmapsField) (s : MappingScan) :
    (fields.map SmapsField.line).foldl MappingScan.line s =
      (fields.filterMap SmapsField.amount).foldl MappingScan.charge s := by
  induction fields generalizing s with
  | nil => rfl
  | cons field fields ih =>
      rw [map_cons, foldl_cons, MappingScan.line_field, ih, filterMap_cons]
      cases field.amount <;> rfl

/-- All lines of some regions. -/
theorem Logged.regions (logged : Logged s log) (regions : List SmapsRegion) :
    Logged ((regions.flatMap SmapsRegion.lines).foldl MappingScan.line s)
    (log ++ chargeLog s.current regions) := by
  induction regions generalizing s log with
  | nil =>
      rw [chargeLog, append_nil]
      exact logged
  | cons region regions ih =>
      have moved : Logged { s with current := nameAfter s.current region.header } log :=
        ⟨logged.byMapping, logged.file, logged.anon⟩
      obtain ⟨here, current⟩ := moved.charges region.amounts
      rw [flatMap_cons, foldl_append, SmapsRegion.lines, foldl_cons, MappingScan.line_header,
        foldl_line_fields, chargeLog, ← append_assoc]
      have later := ih here
      rwa [current] at later

variable {regions : List SmapsRegion}

/-- However the reads split the text of some regions. -/
theorem scanMappings_logged {chunks : List (List Char)} (text : chunks.flatten = smapsText regions) :
    Logged (scanMappings chunks) (chargeLog kAnonymous regions) := by
  have proper : ∀ line ∈ regions.flatMap SmapsRegion.lines, '\n' ∉ line := by
    intro line member
    obtain ⟨region, -, within⟩ := mem_flatMap.1 member
    exact region.newline_not_mem line within
  have start : Logged {} [] := ⟨rfl, rfl, rfl⟩
  rw [scanMappings, LineStream.pour_eq '\n' _ chunks _ not_mem_nil, text, nil_append, smapsText,
    LineStream.cut_flatten proper]
  exact start.regions regions

/-- The rows before they are ranked. -/
theorem Logged.mem_entries (logged : Logged s log) {row : MappingRss} :
    row ∈ s.entries ↔ row.name ∈ log.map Prod.fst ∧ row.rssKb = (Tally.sumFor log row.name).1.toNat ∧
      row.sizeKb = (Tally.sumFor log row.name).2.toNat := by
  rw [MappingScan.entries, logged.byMapping, mem_map]
  constructor
  · rintro ⟨⟨name, sum⟩, member, rfl⟩
    obtain ⟨opened, rfl⟩ := Tally.mem_entries_book.1 member
    exact ⟨opened, rfl, rfl⟩
  · rintro ⟨opened, rss, size⟩
    refine ⟨⟨row.name, Tally.sumFor log row.name⟩, Tally.mem_entries_book.2 ⟨opened, rfl⟩, ?_⟩
    rw [← rss, ← size]

theorem MappingScan.nodup_names (s : MappingScan) : (s.entries.map MappingRss.name).Nodup := by
  have names : s.entries.map MappingRss.name = s.byMapping.keys := by
    rw [entries, map_map]
    rfl
  rw [names]
  exact s.byMapping.keys_nodup

/-! ### What the regions say -/

/-- The ranking has one row for each mapping, with the sums over its regions, and the totals are those
over the regions of files and the others. -/
structure OwnSums (regions : List SmapsRegion) (ranked : List MappingRss)
    (totals : MappingTotals) : Prop where
  named : ∀ name, (∃ row ∈ ranked, row.name = name) ↔ ∃ region ∈ regions, region.name = name
  once : (ranked.map MappingRss.name).Nodup
  rss : ∀ row ∈ ranked,
    row.rssKb = ((regions.filter fun region => region.name = row.name).map SmapsRegion.rssKb).sum.toNat
  size : ∀ row ∈ ranked,
    row.sizeKb = ((regions.filter fun region => region.name = row.name).map SmapsRegion.sizeKb).sum.toNat
  totals : totals =
    { fileRssKb := ((regions.filter fun region => region.inFile = true).map SmapsRegion.rssKb).sum.toNat
      anonRssKb := ((regions.filter fun region => region.inFile = false).map SmapsRegion.rssKb).sum.toNat
      fileSizeKb := ((regions.filter fun region => region.inFile = true).map SmapsRegion.sizeKb).sum.toNat
      anonSizeKb := ((regions.filter fun region => region.inFile = false).map SmapsRegion.sizeKb).sum.toNat }

/-- What would be charged if every region went to its own mapping. -/
def ownLog (regions : List SmapsRegion) : List Charge :=
  regions.flatMap fun region => region.amounts.map (region.name, ·)

theorem SmapsRegion.sum_amounts (region : SmapsRegion) :
    region.amounts.sum = (region.rssKb, region.sizeKb) := by
  have sums : ∀ fields : List SmapsField, (fields.filterMap SmapsField.amount).sum =
      ((fields.filterMap SmapsField.rssKb).sum, (fields.filterMap SmapsField.sizeKb).sum) := by
    intro fields
    induction fields with
    | nil => rfl
    | cons field fields ih =>
        cases field with
        | rss blanks kb =>
            change (kb, 0) + (fields.filterMap SmapsField.amount).sum =
              (kb + (fields.filterMap SmapsField.rssKb).sum, (fields.filterMap SmapsField.sizeKb).sum)
            rw [ih, Prod.mk_add_mk, zero_add]
        | size blanks kb =>
            change (0, kb) + (fields.filterMap SmapsField.amount).sum =
              ((fields.filterMap SmapsField.rssKb).sum, kb + (fields.filterMap SmapsField.sizeKb).sum)
            rw [ih, Prod.mk_add_mk, zero_add]
        | other field => exact ih
  obtain ⟨rss, onlyRss⟩ := length_eq_one_iff.1 region.oneRss
  obtain ⟨size, onlySize⟩ := length_eq_one_iff.1 region.oneSize
  rw [amounts, sums, rssKb, sizeKb, onlyRss, onlySize]
  simp

/-- Charges summed by a property of the mapping. -/
theorem sumFor_ownLog {κ : Type} [DecidableEq κ] (kind : String → κ) (regions : List SmapsRegion)
    (account : κ) :
    Tally.sumFor ((ownLog regions).map fun charge => (kind charge.1, charge.2)) account =
      (((regions.filter fun region => kind region.name = account).map SmapsRegion.rssKb).sum,
        ((regions.filter fun region => kind region.name = account).map SmapsRegion.sizeKb).sum) := by
  induction regions with
  | nil => rfl
  | cons region regions ih =>
      have here : Tally.sumFor ((region.amounts.map (region.name, ·)).map fun charge =>
        (kind charge.1, charge.2))
          account = if kind region.name = account then region.amounts.sum else 0 := by
        rw [map_map]
        exact Tally.sumFor_single (kind region.name) account region.amounts
      rw [ownLog, flatMap_cons, map_append, Tally.sumFor_append, here, ← ownLog, ih, region.sum_amounts]
      by_cases same : kind region.name = account
      · simp [same]
      · simp [same]

theorem SmapsRegion.isFileName_name (region : SmapsRegion) : isFileName region.name = region.inFile := by
  rw [SmapsRegion.name, SmapsHeader.name, isFileName, inFile]
  by_cases anonymous : region.header.path = []
  · rw [if_pos anonymous, anonymous]
    decide
  · rw [if_neg anonymous, String.toList_ofList]

/-- Every region has a charge. -/
theorem mem_names_ownLog {name : String} :
    name ∈ (ownLog regions).map Prod.fst ↔ ∃ region ∈ regions, region.name = name := by
  rw [ownLog, map_flatMap, mem_flatMap]
  constructor
  · rintro ⟨region, member, within⟩
    rw [map_map, mem_map] at within
    obtain ⟨amount, -, same⟩ := within
    exact ⟨region, member, same⟩
  · rintro ⟨region, member, same⟩
    refine ⟨region, member, ?_⟩
    obtain ⟨rss, only⟩ := length_eq_one_iff.1 region.oneRss
    have first : rss ∈ region.fields.filterMap SmapsField.rssKb := by
      rw [only]
      exact mem_singleton_self rss
    obtain ⟨field, within, value⟩ := mem_filterMap.1 first
    have amount : (rss, 0) ∈ region.amounts := by
      apply mem_filterMap.2 ⟨field, within, ?_⟩
      cases field with
      | rss blanks kb => exact congrArg (Option.map (·, 0)) value
      | size blanks kb => cases value
      | other field => cases value
    rw [map_map, mem_map]
    exact ⟨(rss, 0), amount, same⟩

theorem sumFor_ownLog_name (regions : List SmapsRegion) (name : String) :
    Tally.sumFor (ownLog regions) name =
      (((regions.filter fun region => region.name = name).map SmapsRegion.rssKb).sum,
        ((regions.filter fun region => region.name = name).map SmapsRegion.sizeKb).sum) := by
  have identity := sumFor_ownLog id regions name
  have unchanged : (ownLog regions).map (fun charge => (id charge.1, charge.2)) = ownLog regions := map_id _
  rwa [unchanged] at identity

theorem kindSum_ownLog (regions : List SmapsRegion) (file : Bool) :
    kindSum file (ownLog regions) =
      (((regions.filter fun region => region.inFile = file).map SmapsRegion.rssKb).sum,
        ((regions.filter fun region => region.inFile = file).map SmapsRegion.sizeKb).sum) := by
  rw [kindSum, sumFor_ownLog isFileName]
  simp only [SmapsRegion.isFileName_name]

section

variable {s : MappingScan} {regions : List SmapsRegion}

theorem Logged.exists_entry (logged : Logged s (ownLog regions)) (name : String) :
    (∃ row ∈ s.entries, row.name = name) ↔ ∃ region ∈ regions, region.name = name := by
  rw [← mem_names_ownLog]
  constructor
  · rintro ⟨row, member, rfl⟩
    exact (logged.mem_entries.1 member).1
  · intro opened
    let sum := Tally.sumFor (ownLog regions) name
    exact ⟨⟨name, sum.1.toNat, sum.2.toNat⟩, logged.mem_entries.2 ⟨opened, rfl, rfl⟩, rfl⟩

/-- The map has as many entries as there are names. -/
theorem Logged.length_entries (logged : Logged s (ownLog regions)) :
    s.entries.length = (regions.map SmapsRegion.name).toFinset.card := by
  have names : (s.entries.map MappingRss.name).toFinset = (regions.map SmapsRegion.name).toFinset := by
    ext name
    simp only [mem_toFinset, mem_map]
    exact logged.exists_entry name
  rw [← length_map MappingRss.name, ← toFinset_card_of_nodup s.nodup_names, names]

/-- The rows and totals of a log that charges every region to its own mapping. -/
theorem Logged.ownSums (logged : Logged s (ownLog regions)) {topN : Nat}
    (enough : (regions.map SmapsRegion.name).toFinset.card ≤ topN) {sorted : List MappingRss}
    (outcome : SortOutcome rssFirst s.entries sorted) : OwnSums regions (sorted.take topN) s.totals := by
  have whole : sorted.take topN = sorted := by
    apply take_of_length_le
    rw [outcome.perm.length_eq, logged.length_entries]
    exact enough
  rw [whole]
  constructor
  · intro name
    rw [← logged.exists_entry]
    simp only [outcome.perm.mem_iff]
  · exact (outcome.perm.map MappingRss.name).nodup_iff.2 s.nodup_names
  · intro row member
    rw [(logged.mem_entries.1 (outcome.perm.mem_iff.1 member)).2.1, sumFor_ownLog_name]
  · intro row member
    rw [(logged.mem_entries.1 (outcome.perm.mem_iff.1 member)).2.2, sumFor_ownLog_name]
  · rw [MappingScan.totals, logged.file, logged.anon, kindSum_ownLog, kindSum_ownLog]

end

/-! ### Which headers are recognised -/

/-- A path that ends neither in a blank nor in a carriage return. -/
def NoBlankEnd (path : List Char) : Prop := ∀ c ∈ path.getLast?, c ≠ ' ' ∧ c ≠ '\r'

/-- Each header begins with a decimal digit and its path has no blank end, or it names the mapping before
it. -/
def Recognised : String → List SmapsHeader → Prop
  | _, [] => True
  | before, header :: rest =>
      (if header.decimalFirst then NoBlankEnd header.path else header.name = before) ∧
        Recognised header.name rest

theorem mappingName_eq_iff (header : SmapsHeader) :
    mappingName header.path = header.name ↔ NoBlankEnd header.path := by
  have whole : (header.path.rdropWhile fun c => c == ' ' || c == '\r') = header.path ↔
    NoBlankEnd header.path := by
    rw [rdropWhile_eq_self_iff, NoBlankEnd]
    constructor
    · intro clean c last
      have some_ : header.path ≠ [] := by
        intro empty
        rw [empty] at last
        cases last
      rw [List.getLast?_eq_getLast_of_ne_nil some_, Option.mem_some_iff] at last
      simpa [last] using clean some_
    · intro clean some_
      simpa using clean _ (List.getLast?_eq_getLast_of_ne_nil some_)
  rw [← whole, mappingName, SmapsHeader.name]
  constructor
  · intro same
    by_cases stripped : (header.path.rdropWhile fun c => c == ' ' || c == '\r') = []
    · by_cases anonymous : header.path = []
      · rw [stripped, anonymous]
      · -- A path of blanks only is not the name of the anonymous mapping.
        rw [if_pos stripped, if_neg anonymous] at same
        have path : header.path = kAnonymous.toList := by rw [same, String.toList_ofList]
        rw [path] at stripped
        exact absurd stripped (by decide)
    · have some_ : header.path ≠ [] := by
        intro empty
        rw [empty] at stripped
        exact stripped rfl
      rw [if_neg stripped, if_neg some_] at same
      exact String.ofList_injective same
  · intro same
    rw [same]

variable {header : SmapsHeader}

theorem nameAfter_eq_iff {before : String} :
    nameAfter before header = header.name ↔
      if header.decimalFirst then NoBlankEnd header.path else header.name = before := by
  unfold nameAfter
  cases header.decimalFirst with
  | true => exact mappingName_eq_iff header
  | false => exact eq_comm

theorem chargeLog_own {before : String} (recognised : Recognised before (regions.map SmapsRegion.header)) :
    chargeLog before regions = ownLog regions := by
  induction regions generalizing before with
  | nil => rfl
  | cons region regions ih =>
      obtain ⟨here, later⟩ := recognised
      rw [chargeLog, nameAfter_eq_iff.2 here, ih later]
      rfl

/-- If the scan is in the right mapping after every header, all headers are recognised. -/
theorem recognised_of_nameAfter {before : String} {headers : List SmapsHeader}
    (right : ∀ early header late, headers = early ++ header :: late →
      nameAfter (early.foldl nameAfter before) header = header.name) : Recognised before headers := by
  induction headers generalizing before with
  | nil => trivial
  | cons header headers ih =>
      have here := right [] header headers rfl
      refine ⟨nameAfter_eq_iff.1 here, ih fun early other late split => ?_⟩
      have later := right (header :: early) other late (by rw [split, cons_append])
      rwa [foldl_cons, show nameAfter before header = header.name from here] at later

/-! ### Regions that show where they are charged -/

/-- A region with a given residency. -/
def probeRegion (kb : UInt64) (header : SmapsHeader) : SmapsRegion where
  header := header
  fields := [.size 1 0, .rss 1 kb]
  oneRss := rfl
  oneSize := rfl

theorem chargeLog_append (before : String) (early late : List SmapsRegion) :
    chargeLog before (early ++ late) =
      chargeLog before early ++ chargeLog ((early.map SmapsRegion.header).foldl nameAfter before) late := by
  induction early generalizing before with
  | nil => rfl
  | cons region early ih =>
      rw [cons_append, chargeLog, chargeLog, ih, append_assoc]
      rfl

theorem sumFor_probe_zero (before account : String) (headers : List SmapsHeader) :
    Tally.sumFor (chargeLog before (headers.map (probeRegion 0))) account = 0 := by
  induction headers generalizing before with
  | nil => rfl
  | cons header headers ih =>
      rw [map_cons, chargeLog, Tally.sumFor_append, ih, Tally.sumFor_single]
      have nothing : (probeRegion 0 header).amounts.sum = 0 := rfl
      rw [nothing, ite_self, add_zero]

/-- Only the mapping of the region with a residency has one. -/
theorem sum_rss_probe {early late : List SmapsHeader} {name : String} (differs : header.name ≠ name) :
    (((early.map (probeRegion 0) ++ probeRegion 1 header :: late.map (probeRegion 0)).filter
      fun region => region.name = name).map SmapsRegion.rssKb).sum = 0 := by
  apply sum_eq_zero
  intro kb member
  obtain ⟨region, within, rfl⟩ := mem_map.1 member
  obtain ⟨inRegions, named⟩ := mem_filter.1 within
  rcases mem_append.1 inRegions with inEarly | inRest
  · obtain ⟨other, -, rfl⟩ := mem_map.1 inEarly
    rfl
  · rcases mem_cons.1 inRest with rfl | inLate
    · exact absurd (of_decide_eq_true named) differs
    · obtain ⟨other, -, rfl⟩ := mem_map.1 inLate
      rfl

instance : Std.Total fun a b : MappingRss => rssFirst b a = false where
  total a b := by
    simp only [rssFirst, decide_eq_false_iff_not]
    omega

instance : IsTrans MappingRss fun a b => rssFirst b a = false where
  trans a b c := by
    simp only [rssFirst, decide_eq_false_iff_not]
    omega

/-- Whatever the regions with these headers say, however it is read and equal residencies are ranked:
every region is charged to its own mapping. -/
def ChargedToOwn (headers : List SmapsHeader) : Prop :=
  ∀ regions chunks topN ranked totals, regions.map SmapsRegion.header = headers →
    chunks.flatten = smapsText regions → (∀ chunk ∈ chunks, chunk ≠ [] ∧ chunk.length ≤ kSmapsChunkBytes) →
    (regions.map SmapsRegion.name).toFinset.card ≤ topN →
    CollectsMappingRss (some chunks) topN ranked totals → OwnSums regions ranked totals

/-- The scan is in the mapping of a header after it, if its region is charged to its own mapping. -/
theorem ChargedToOwn.nameAfter_eq {early late : List SmapsHeader}
    (own : ChargedToOwn (early ++ header :: late)) :
    nameAfter (early.foldl nameAfter kAnonymous) header = header.name := by
  -- The region of the header is the only one with a residency.
  let regions := early.map (probeRegion 0) ++ probeRegion 1 header :: late.map (probeRegion 0)
  let chunks := (smapsText regions).map fun c => [c]
  generalize charged : nameAfter (early.foldl nameAfter kAnonymous) header = name
  have headers : ∀ kept : List SmapsHeader, (kept.map (probeRegion 0)).map SmapsRegion.header = kept :=
    fun kept => by rw [map_map]; exact map_id kept
  have text : chunks.flatten = smapsText regions := by
    rw [← flatMap_def]
    exact flatMap_singleton' _
  have logged := scanMappings_logged text
  have log : chargeLog kAnonymous regions = chargeLog kAnonymous (early.map (probeRegion 0)) ++
      ((probeRegion 1 header).amounts.map (name, ·) ++ chargeLog name (late.map (probeRegion 0))) := by
    rw [chargeLog_append, headers, ← charged]
    rfl
  have sum : Tally.sumFor (chargeLog kAnonymous regions) name = (1, 0) := by
    rw [log, Tally.sumFor_append, Tally.sumFor_append, sumFor_probe_zero, sumFor_probe_zero,
      Tally.sumFor_single,
      if_pos rfl]
    rfl
  have row : (⟨name, 1, 0⟩ : MappingRss) ∈ (scanMappings chunks).entries := by
    apply logged.mem_entries.2
    rw [sum]
    refine ⟨?_, rfl, rfl⟩
    rw [log, map_append, map_append]
    exact mem_append_right _ (mem_append_left _ mem_cons_self)
  have outcome := SortOutcome.insertionSort rssFirst (scanMappings chunks).entries
  have short : ∀ chunk ∈ chunks, chunk ≠ [] ∧ chunk.length ≤ kSmapsChunkBytes := by
    intro chunk member
    obtain ⟨c, -, rfl⟩ := mem_map.1 member
    exact ⟨cons_ne_nil _ _, (by decide : 1 ≤ kSmapsChunkBytes)⟩
  have same : regions.map SmapsRegion.header = early ++ header :: late := by
    rw [map_append, map_cons, headers, headers]
    rfl
  have sums := own regions chunks ((regions.map SmapsRegion.name).toFinset.card +
    (scanMappings chunks).entries.length)
    _ _ same text short (Nat.le_add_right _ _) ⟨⟨_, outcome, rfl⟩, rfl⟩
  rw [take_of_length_le (by rw [outcome.perm.length_eq]; exact Nat.le_add_left _ _)] at sums
  have value := sums.rss _ (outcome.perm.mem_iff.2 row)
  by_contra differs
  rw [sum_rss_probe (Ne.symm differs)] at value
  cases value

/-- Whatever their fields say, all regions are charged to their own mapping if and only if each header
begins with a decimal digit and has a path without a blank end, or belongs to the same mapping as the one
before it. -/
theorem own_mapping_charged_iff (headers : List SmapsHeader) :
    ChargedToOwn headers ↔ Recognised kAnonymous headers := by
  constructor
  · intro own
    apply recognised_of_nameAfter
    rintro early header late rfl
    exact own.nameAfter_eq
  · rintro recognised regions chunks topN ranked totals rfl text - enough ⟨⟨sorted, outcome, rfl⟩, rfl⟩
    have logged := scanMappings_logged text
    rw [chargeLog_own recognised] at logged
    exact logged.ownSums enough outcome

/-! ### A mapping at a high address -/

/-- The text of an executable, as a 64-bit system with 48-bit addresses places it. -/
def highHeader : SmapsHeader where
  start := 0xaaaad5e60000
  stop := 0xaaaad5e62000
  perms := ⟨true, false, true, false⟩
  offset := 0
  devMajor := 0xfd
  devMinor := 0
  inode := 519
  width := 8
  padding := 10
  path := "/system/bin/app".toList
  apart := fun _ => by decide
  oneLine := by decide
  begins := by decide

def highRegion : SmapsRegion where
  header := highHeader
  fields := [.size 11 8, .rss 12 4]
  oneRss := rfl
  oneSize := rfl

/-- Its pages are charged to the anonymous mapping, and to the anonymous totals. -/
theorem high_address_charged_elsewhere :
    highRegion.name = "/system/bin/app" ∧
      (scanMappings [smapsText [highRegion]]).entries = [⟨"[anonymous]", 4, 8⟩] ∧
      (scanMappings [smapsText [highRegion]]).totals = ⟨0, 4, 0, 8⟩ := by
  refine ⟨by decide, by decide +kernel, by decide +kernel⟩

end MallocHook
