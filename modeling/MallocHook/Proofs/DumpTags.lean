/-
Module: MallocHook.Proofs.DumpTags
Purpose: The tags of the reports of a run are distinct, and so are the names of the files made for them.
Trusted boundary: none
Main exports: numberRepeats_nodup, dump_tags_unique
-/
import MallocHook.Proofs.DumpNameReading

namespace MallocHook

open PosixPath List

/-! ### The characters of a tag -/

section

variable {classes : TextClasses} {c : Char} (ascii : c.toNat < 128) (outside : tagChar c = false)

include ascii outside

theorem inTag_eq_false : classes.inTag c = false := by
  rw [TextClasses.inTag, classes.word_ascii c ascii]
  exact outside

/-- A character outside the class is replaced by another. -/
theorem notMem_replaceRuns (inRun : Bool) (text : List Char) : c ∉ replaceRuns classes.inTag inRun text := by
  have underscore : c ≠ '_' := by
    rintro rfl
    cases outside
  induction text generalizing inRun with
  | nil => exact not_mem_nil
  | cons first text ih =>
      rw [replaceRuns]
      split
      · next kept =>
          refine not_mem_cons_of_ne_of_not_mem ?_ (ih false)
          rintro rfl
          exact absurd kept (by simp [inTag_eq_false ascii outside])
      · split
        · exact ih true
        · exact not_mem_cons_of_ne_of_not_mem underscore (ih true)

theorem notMem_searchNumber {name : String} {stem number : List Char}
    (found : searchNumber classes name stem = some number) : c ∉ number := by
  refine notMem_of_digits (searchNumber_digits found) ascii ?_
  simp only [tagChar, Char.isAlphanum, Bool.or_eq_false_iff] at outside
  exact outside.1.1.1.2

theorem notMem_dumpTagParts (path : Path) (key : TagKey) : c ∉ (dumpTagParts classes path).get key := by
  have literal {text : List Char} (plain : text.all tagChar = true) : c ∉ text := by
    intro member
    rw [all_eq_true.1 plain c member] at outside
    cases outside
  cases key
  all_goals simp only [DumpTagParts.get, dumpTagParts]
  case kind =>
    split
    · split
      · exact literal (by decide)
      · exact literal (by decide)
    · exact notMem_replaceRuns ascii outside _ _
  case pid =>
    cases found : searchNumber classes "pid" (stemOf (basename path)) with
    | none => exact not_mem_nil
    | some number =>
        rw [Option.elim_some, mem_append, not_or]
        exact ⟨literal (by decide), notMem_searchNumber ascii outside found⟩
  case time =>
    cases found : searchNumber classes "time" (stemOf (basename path)) with
    | none => exact not_mem_nil
    | some number =>
        refine not_mem_cons_of_ne_of_not_mem ?_ (notMem_searchNumber ascii outside found)
        rintro rfl
        cases outside

/-- A tag has only the characters that are allowed in it, as far as ASCII goes. -/
theorem notMem_tagOf (keys : List TagKey) (path : Path) : c ∉ tagOf keys (dumpTagParts classes path) := by
  have dash : c ∉ ['-'] := by
    rw [mem_singleton]
    rintro rfl
    cases outside
  have join {parts : List (List Char)} (clear : ∀ part ∈ parts, c ∉ part) : c ∉ ['-'].intercalate parts := by
    induction parts with
    | nil => exact not_mem_nil
    | cons first later ih =>
        obtain ⟨here, there⟩ := forall_mem_cons.1 clear
        cases later with
        | nil => simpa using here
        | cons next later =>
            rw [intercalate_cons_cons, mem_append, mem_append, not_or, not_or]
            exact ⟨⟨here, dash⟩, ih there⟩
  refine join fun part member => ?_
  obtain ⟨key, -, rfl⟩ := mem_map.1 (mem_filter.1 member).1
  exact notMem_dumpTagParts ascii outside path key

theorem notMem_tags (logFiles : List Path) (keys : List TagKey) :
    ∀ tag ∈ (logFiles.map (dumpTagParts classes)).map (tagOf keys), c ∉ tag := by
  simp only [map_map, mem_map]
  rintro _ ⟨path, -, rfl⟩
  exact notMem_tagOf ascii outside keys path

end

/-! ### Numbers behind repeated tags -/

/-- A tag that comes for the so manieth time. -/
def numbered (tag : List Char) (count : Nat) : List Char :=
  if count = 1 then tag else tag ++ '#' :: Nat.toDigits 10 count

theorem numbered_inj {tag tag' : List Char} {count count' : Nat} (clear : '#' ∉ tag) (clear' : '#' ∉ tag')
    (same : numbered tag count = numbered tag' count') : tag = tag' ∧ count = count' := by
  unfold numbered at same
  split at same
  · next first =>
      split at same
      · next first' => exact ⟨same, first.trans first'.symm⟩
      · exact absurd (same ▸ mem_append_right _ mem_cons_self) clear
  · split at same
    · exact absurd (same ▸ mem_append_right _ mem_cons_self) clear'
    · obtain ⟨sameTag, -, sameNumber⟩ := (append_cons_inj_of_notMem clear (Scanf.notMem_toDigits _ rfl)).1
        same
      exact ⟨sameTag, Scanf.toDigits_injective (by decide) (by decide) sameNumber⟩

theorem slash_notMem_numbered {tag : List Char} (clear : '/' ∉ tag) (count : Nat) :
    '/' ∉ numbered tag count := by
  unfold numbered
  split
  · exact clear
  · rw [mem_append, not_or]
    exact ⟨clear, not_mem_cons_of_ne_of_not_mem (by decide) (Scanf.notMem_toDigits count rfl)⟩

/-- Every result is a tag with a count that it had not reached before. -/
theorem mem_numberRepeats {before tags : List (List Char)} {out : List Char}
    (member : out ∈ numberRepeats before tags) :
    ∃ tag ∈ tags, ∃ count, before.count tag < count ∧ out = numbered tag count := by
  induction tags generalizing before with
  | nil => cases member
  | cons tag later ih =>
      rcases mem_cons.1 member with rfl | member
      · exact ⟨tag, mem_cons_self, before.count tag + 1, Nat.lt_succ_self _, rfl⟩
      · obtain ⟨other, inLater, count, above, same⟩ := ih member
        exact ⟨other, mem_cons_of_mem _ inLater, count, count_le_count_cons.trans_lt above, same⟩

theorem numberRepeats_nodup {tags : List (List Char)} (clear : ∀ tag ∈ tags, '#' ∉ tag)
    (before : List (List Char)) : (numberRepeats before tags).Nodup := by
  induction tags generalizing before with
  | nil => exact nodup_nil
  | cons tag later ih =>
      obtain ⟨here, there⟩ := forall_mem_cons.1 clear
      refine nodup_cons.2 ⟨fun member => ?_, ih there (tag :: before)⟩
      obtain ⟨other, inLater, count, above, same⟩ := mem_numberRepeats member
      obtain ⟨rfl, rfl⟩ := numbered_inj here (there other inLater) same
      rw [count_cons_self] at above
      exact Nat.lt_irrefl _ above

theorem length_numberRepeats (before tags : List (List Char)) :
    (numberRepeats before tags).length = tags.length := by
  induction tags generalizing before with
  | nil => rfl
  | cons tag later ih => exact congrArg (· + 1) (ih _)

/-! ### The results -/

/-- The file for a report is in the directory of the path, and has the tag in its name. -/
theorem taggedOutputPath_basename (path : Path) : ∃ stem extension, ∀ {tag : List Char}, '/' ∉ tag →
    basename (taggedOutputPath path tag true) = stem ++ '.' :: (tag ++ extension) := by
  obtain ⟨stem, extension, split, plainStem, plainExtension⟩ := splitext_spec path
  refine ⟨stem, extension, fun {tag} plain => ?_⟩
  rw [taggedOutputPath, if_pos rfl, split, append_assoc]
  refine basename_append (directory_closed path) ?_
  simp only [mem_append, mem_cons, not_or]
  exact ⟨plainStem, by decide, plain, plainExtension⟩

theorem length_buildDumpTags (classes : TextClasses) (logFiles : List Path) :
    (buildDumpTags classes logFiles).length = logFiles.length := by
  rcases buildDumpTags_cases classes logFiles with ⟨keys, -, -, same⟩ | ⟨-, same⟩
  · rw [same, length_map, length_map]
  · rw [same, length_numberRepeats, length_map, length_map]

theorem buildDumpTags_nodup (classes : TextClasses) (logFiles : List Path) :
    (buildDumpTags classes logFiles).Nodup := by
  rcases buildDumpTags_cases classes logFiles with ⟨keys, -, distinct, same⟩ | ⟨-, same⟩
  · rw [same]
    exact distinct
  · rw [same]
    exact numberRepeats_nodup (notMem_tags (by decide) rfl logFiles _) []

theorem slash_notMem_buildDumpTags {classes : TextClasses} {logFiles : List Path} {tag : List Char}
    (member : tag ∈ buildDumpTags classes logFiles) : '/' ∉ tag := by
  have clear := @notMem_tags classes '/' (by decide) rfl logFiles
  rcases buildDumpTags_cases classes logFiles with ⟨keys, -, -, same⟩ | ⟨-, same⟩
  · rw [same] at member
    exact clear keys tag member
  · rw [same] at member
    obtain ⟨plain, isTag, count, -, rfl⟩ := mem_numberRepeats member
    exact slash_notMem_numbered (clear _ plain isTag) count

/-- For all files, whatever their names are: there is one tag for each, the tags are distinct, and so are
the base names of the files that are made for them next to any path. -/
theorem dump_tags_unique (classes : TextClasses) (logFiles : List Path) :
    (buildDumpTags classes logFiles).length = logFiles.length ∧ (buildDumpTags classes logFiles).Nodup ∧
      ∀ path, ((buildDumpTags classes logFiles).map fun tag =>
        basename (taggedOutputPath path tag (decide (1 < logFiles.length)))).Nodup := by
  have length := length_buildDumpTags classes logFiles
  have distinct := buildDumpTags_nodup classes logFiles
  refine ⟨length, distinct, fun path => ?_⟩
  by_cases multi : 1 < logFiles.length
  · obtain ⟨stem, extension, named⟩ := taggedOutputPath_basename path
    rw [decide_eq_true multi]
    refine distinct.map_on fun tag member tag' member' same => ?_
    rw [named (slash_notMem_buildDumpTags member), named (slash_notMem_buildDumpTags member'),
      append_cancel_left_eq] at same
    exact append_cancel_right (List.cons.inj same).2
  · -- one report at most, whose path has no tag
    refine nodup_iff_sublist.2 fun name twice => ?_
    have two : 2 ≤ logFiles.length := by simpa [length] using twice.length_le
    exact multi two

example : buildDumpTags asciiClasses ["a/x.txt".toList, "b/x.txt".toList, "x#2".toList] =
    ["x".toList, "x#2".toList, "x_2".toList] := by decide +kernel

end MallocHook
