/-
Module: MallocHook.Proofs.ModuleGenerations
Purpose: Generations of the module registry: a log of numbered versions, of which the registry holds the
  newest.
Trusted boundary: none
Main exports: evictOldest_window, Holds, registry_generations
-/
import MallocHook.Lib.VersionLog
import MallocHook.Core.ModuleRegistry

namespace MallocHook

open List Option

/-! ### Equivalent lists -/

/-- The lists differ at most in the generations of their modules. -/
def SameModules (one two : List ModuleInfo) : Prop :=
  one.map (ModuleInfo.tag 0) = two.map (ModuleInfo.tag 0)

theorem sameModules_equivalence : Equivalence SameModules :=
  ⟨fun _ => rfl, fun same => same.symm, fun first second => first.trans second⟩

theorem ModuleInfo.sameAs_iff {a b : ModuleInfo} : a.sameAs b = true ↔ a.tag 0 = b.tag 0 := by
  cases a
  cases b
  simp [sameAs, tag, and_assoc]

theorem equivalentModules_iff {one two : List ModuleInfo} :
    equivalentModules one two = true ↔ SameModules one two := by
  induction one generalizing two with
  | nil => cases two <;> simp [equivalentModules, SameModules]
  | cons a lhs ih =>
      cases two with
      | nil => simp [equivalentModules, SameModules]
      | cons b rhs => simp [equivalentModules, SameModules, ModuleInfo.sameAs_iff, ih]

@[simp] theorem ModuleInfo.tag_tag (generation generation' : Nat) (module : ModuleInfo) :
    (module.tag generation).tag generation' = module.tag generation' := rfl

theorem sameModules_tag (generation : Nat) (modules : List ModuleInfo) :
    SameModules (modules.map (ModuleInfo.tag generation)) modules := by
  simp [SameModules, Function.comp_def]

/-- Equivalent lists are tagged alike. -/
theorem SameModules.tag_eq {one two : List ModuleInfo} (same : SameModules one two) (generation : Nat) :
    one.map (ModuleInfo.tag generation) = two.map (ModuleInfo.tag generation) := by
  have tagged := congrArg (List.map (ModuleInfo.tag generation)) same
  simpa [Function.comp_def] using tagged

/-! ### Eviction -/

theorem oldestOf_spec (first : Nat) (keys : List Nat) :
    oldestOf first keys ∈ first :: keys ∧ ∀ key ∈ first :: keys, oldestOf first keys ≤ key := by
  induction keys generalizing first with
  | nil => simp [oldestOf]
  | cons key later ih =>
      obtain ⟨member, least⟩ := ih (if key < first then key else first)
      have step : oldestOf first (key :: later) = oldestOf (if key < first then key else first) later := rfl
      rw [step]
      simp only [mem_cons, forall_eq_or_imp] at member least ⊢
      obtain ⟨leChosen, leLater⟩ := least
      refine ⟨?_, ?_, ?_, leLater⟩
      · rcases member with chosen | member
        · rw [chosen]
          split_ifs <;> simp
        · exact .inr (.inr member)
      · split_ifs at leChosen ⊢ <;> omega
      · split_ifs at leChosen ⊢ <;> omega

/-- The generations that are held are those after `low` and up to `high`. -/
def Window (low high : Nat) (snapshots : Snapshots) : Prop :=
  ∀ generation, generation ∈ snapshots ↔ low < generation ∧ generation ≤ high

variable {low high : Nat} {snapshots : Snapshots}

theorem Window.length_eq (window : Window low high snapshots) : snapshots.entries.length = high - low := by
  have keys : snapshots.keys.Perm (List.range' (low + 1) (high - low)) := by
    refine (perm_ext_iff_of_nodup snapshots.keys_nodup nodup_range').2 fun generation => ?_
    rw [← AList.mem_keys, window, mem_range'_1]
    omega
  have lengths := keys.length_eq
  rw [length_range'] at lengths
  rw [← lengths]
  exact (length_map _).symm

theorem mem_of_lookup {generation : Nat} {list : List ModuleInfo}
    (found : snapshots.lookup generation = some list) : generation ∈ snapshots :=
  AList.lookup_isSome.1 (isSome_iff_exists.2 ⟨list, found⟩)

/-- The oldest entry of a window leaves. -/
theorem Window.erase (window : Window low high snapshots) :
    Window (low + 1) high (snapshots.erase (low + 1)) := by
  intro generation
  rw [AList.mem_erase, window]
  omega

theorem evictOldest_window (window : Window low high snapshots) (limit : Nat) {fuel : Nat}
    (enough : high - low ≤ fuel) :
    Window (max low (high - limit)) high (evictOldest limit fuel snapshots) ∧
      ∀ generation ∈ evictOldest limit fuel snapshots,
        (evictOldest limit fuel snapshots).lookup generation = snapshots.lookup generation := by
  induction fuel generalizing low snapshots with
  | zero =>
      rw [Nat.max_eq_left (by omega)]
      exact ⟨window, fun _ _ => rfl⟩
  | succ fuel ih =>
      unfold evictOldest
      have length := window.length_eq
      split_ifs with tooMany
      · cases keys : snapshots.keys with
        | nil =>
            have noEntry : snapshots.entries.length = 0 := by
              rw [← length_map Sigma.fst]
              exact congrArg List.length keys
            omega
        | cons first later =>
            have oldest : oldestOf first (first :: later) = low + 1 := by
              obtain ⟨member, least⟩ := oldestOf_spec first (first :: later)
              have held (generation : Nat) : generation ∈ first :: first :: later ↔ low < generation ∧
                generation ≤ high := by
                rw [← window, AList.mem_keys, keys]
                simp
              have bounds := (held _).1 member
              have below := least (low + 1) ((held _).2 (by omega))
              omega
            dsimp only
            rw [oldest]
            obtain ⟨window', kept⟩ := ih window.erase (by omega)
            have same : max (low + 1) (high - limit) = max low (high - limit) := by omega
            rw [same] at window'
            refine ⟨window', fun generation member => (kept generation member).trans ?_⟩
            have above := (window' generation).1 member
            exact AList.lookup_erase_ne (by omega)
      · rw [Nat.max_eq_left (by omega)]
        exact ⟨window, fun _ _ => rfl⟩

/-! ### Runs -/

/-- What holds of a run: its publications are numbered, and the registry holds the newest ones. -/
structure Holds (limit : Nat) (run : RegistryRun) (last : List ModuleInfo) : Prop where
  limit_eq : run.registry.maxRetainedGenerations = max limit 1
  numbered : Numbered SameModules run.published last run.registry.generation
  window : Window (run.registry.generation - max limit 1) run.registry.generation run.registry.snapshots
  tagged : ∀ generation list, run.registry.snapshots.lookup generation = some list →
    ∃ original, (original, generation) ∈ run.published ∧ list = original.map (ModuleInfo.tag generation)

namespace Holds

variable {limit : Nat} {run : RegistryRun} {last : List ModuleInfo}

theorem init (limit : Nat) : Holds limit (registryMachine limit).init [] where
  limit_eq := rfl
  numbered := .first []
  window generation := by
    change generation ∈ AList.singleton 1 _ ↔ 1 - max limit 1 < generation ∧ generation ≤ 1
    rw [AList.mem_keys, AList.keys_singleton, mem_singleton]
    omega
  tagged generation list found := by
    obtain rfl : generation = 1 := mem_singleton.1 (AList.mem_keys.1 (mem_of_lookup found))
    cases found
    exact ⟨[], mem_singleton_self _, rfl⟩

section

variable (holds : Holds limit run last)
include holds

/-- The list of a generation that is held, whichever publication of it is taken. -/
theorem lookup_eq {generation : Nat} {modules : List ModuleInfo}
    (published : (modules, generation) ∈ run.published)
    (newest : run.registry.generation < generation + max limit 1) :
    run.registry.snapshots.lookup generation = some (modules.map (ModuleInfo.tag generation)) := by
  have bounds := holds.numbered.numbers_le _ published
  have member : generation ∈ run.registry.snapshots := (holds.window generation).2 ⟨by omega, bounds.2⟩
  obtain ⟨list, found⟩ := isSome_iff_exists.1 (AList.lookup_isSome.2 member)
  obtain ⟨original, published', rfl⟩ := holds.tagged generation list found
  have same := holds.numbered.same_of_number_eq sameModules_equivalence published' published rfl
  rw [found, same.tag_eq]

/-- The generation increases exactly if the list differs from the last one. -/
theorem publish_cases (modules : List ModuleInfo) :
    SameModules last modules ∧ run.registry.publish modules = (run.registry, run.registry.generation) ∨
      ¬SameModules last modules ∧
        run.registry.publish modules = (run.registry.publishNew modules, run.registry.generation + 1) := by
  have current := holds.lookup_eq holds.numbered.last_mem (by omega)
  have compared : equivalentModules (last.map (ModuleInfo.tag run.registry.generation)) modules = true ↔
      SameModules last modules := by
    rw [equivalentModules_iff]
    have tagged := sameModules_tag run.registry.generation last
    exact ⟨tagged.symm.trans, tagged.trans⟩
  unfold ModuleRegistry.publish
  rw [current, any_some]
  by_cases same : SameModules last modules
  · exact .inl ⟨same, if_pos (compared.2 same)⟩
  · exact .inr ⟨same, if_neg (compared.not.2 same)⟩

/-- A new list takes the next generation, and the oldest one may have to leave. -/
theorem publishNew {modules : List ModuleInfo} (differs : ¬SameModules last modules) :
    Holds limit ⟨run.registry.publishNew modules,
      run.published ++ [(modules, run.registry.generation + 1)]⟩ modules := by
  let generation := run.registry.generation + 1
  let inserted := run.registry.snapshots.insert generation (modules.map (ModuleInfo.tag generation))
  have grown : Window (run.registry.generation - max limit 1) generation inserted := by
    intro other
    rw [AList.mem_insert, holds.window]
    omega
  obtain ⟨window, kept⟩ := evictOldest_window grown run.registry.maxRetainedGenerations
    (Nat.le_of_eq grown.length_eq.symm)
  have low : max (run.registry.generation - max limit 1) (generation - run.registry.maxRetainedGenerations) =
      generation - max limit 1 := by
    rw [holds.limit_eq]
    omega
  refine ⟨holds.limit_eq, .next holds.numbered differs, low ▸ window, fun other list found => ?_⟩
  rw [show (run.registry.publishNew modules).snapshots.lookup other = inserted.lookup other from
    kept other (mem_of_lookup found)] at found
  by_cases new : other = generation
  · subst new
    rw [AList.lookup_insert] at found
    cases found
    exact ⟨modules, mem_append_right _ (mem_singleton_self _), rfl⟩
  · rw [AList.lookup_insert_ne new] at found
    obtain ⟨original, published, isTagged⟩ := holds.tagged other list found
    exact ⟨original, mem_append_left _ published, isTagged⟩

theorem step {call : RegistryCall} {run' : RegistryRun}
    (stepped : (registryMachine limit).step run call = some run') : ∃ last', Holds limit run' last' := by
  cases call with
  | publish modules =>
      cases stepped
      refine ⟨modules, ?_⟩
      obtain ⟨same, published⟩ | ⟨differs, published⟩ := holds.publish_cases modules
      · rw [published]
        refine ⟨holds.limit_eq, .again holds.numbered same, holds.window, fun generation list found => ?_⟩
        obtain ⟨original, published, isTagged⟩ := holds.tagged generation list found
        exact ⟨original, mem_append_left _ published, isTagged⟩
      · rw [published]
        exact holds.publishNew differs
  | resolve pc generation isNull =>
      cases stepped
      exact ⟨last, holds⟩

end

theorem of_reachable (reached : (registryMachine limit).Reachable run) : ∃ last, Holds limit run last :=
  reached.invariant (P := fun run => ∃ last, Holds limit run last) ⟨[], .init limit⟩
    fun ⟨_, holds⟩ _ stepped => holds.step stepped

/-- A module that is found belongs to the list of the generation that was asked for. -/
theorem resolve_some (holds : Holds limit run last) {pc : UInt64} {generation : Nat} {isNull : Bool}
    {module : ModuleInfo} (resolved : run.registry.resolve pc generation isNull = some module) :
    ∃ modules, (modules, generation) ∈ run.published ∧ module ∈ modules.map (ModuleInfo.tag generation) ∧
      module.start ≤ pc ∧ pc < module.stop := by
  unfold ModuleRegistry.resolve at resolved
  split_ifs at resolved
  obtain ⟨list, found, resolved⟩ := bind_eq_some_iff.1 resolved
  obtain ⟨original, published, rfl⟩ := holds.tagged generation list found
  have covered := List.find?_some resolved
  rw [ModuleInfo.covers, Bool.and_eq_true, decide_eq_true_eq, decide_eq_true_eq] at covered
  exact ⟨original, published, mem_of_find?_eq_some resolved, covered⟩

end Holds

/-- The generations returned by `Publish` never decrease, and the next one increases exactly if its list
differs from the last; a generation is never used for two lists; what `Resolve` finds for a generation is
in the list published as it; and the generations held are the newest ones. -/
theorem registry_generations {limit : Nat} {run : RegistryRun}
    (reached : (registryMachine limit).Reachable run) :
    (run.published.map Prod.snd).Pairwise (· ≤ ·) ∧
    (∃ last, run.published.getLast? = some (last, run.registry.generation) ∧
      ∀ modules, run.registry.generation ≤ (run.registry.publish modules).2 ∧
        (run.registry.generation < (run.registry.publish modules).2 ↔ ¬SameModules last modules)) ∧
    (∀ one ∈ run.published, ∀ two ∈ run.published, one.2 = two.2 → SameModules one.1 two.1) ∧
    (∀ pc generation isNull module, run.registry.resolve pc generation isNull = some module →
      module.generation = generation ∧ module.start ≤ pc ∧ pc < module.stop ∧
      (∃ modules, (modules, generation) ∈ run.published) ∧
      ∀ modules, (modules, generation) ∈ run.published →
      ∃ original ∈ modules, module = original.tag generation) ∧
    (∀ modules, (modules, run.registry.generation) ∈ run.published → ∀ pc,
      run.registry.resolve pc run.registry.generation false =
        (modules.map (ModuleInfo.tag run.registry.generation)).find? (ModuleInfo.covers pc)) ∧
    run.registry.snapshotCount ≤ max limit 1 ∧
    ∀ generation, generation ∈ run.registry.snapshots ↔
      (∃ modules, (modules, generation) ∈ run.published) ∧
      run.registry.generation < generation + max limit 1 := by
  obtain ⟨last, holds⟩ := Holds.of_reachable reached
  have numbered := holds.numbered
  refine ⟨pairwise_map.2 numbered.sorted, ⟨last, numbered.getLast?_eq, fun modules => ?_⟩,
    fun one memberOne two memberTwo => numbered.same_of_number_eq sameModules_equivalence
      memberOne memberTwo,
    fun pc generation isNull module resolved => ?_, fun modules published pc => ?_, ?_, fun generation => ?_⟩
  · obtain ⟨same, answer⟩ | ⟨differs, answer⟩ := holds.publish_cases modules
    · simp [answer, same]
    · simp [answer, differs]
  · obtain ⟨modules, published, member, covered⟩ := holds.resolve_some resolved
    refine ⟨?_, covered.1, covered.2, ⟨modules, published⟩, fun modules' published' => ?_⟩
    · obtain ⟨original, _, rfl⟩ := mem_map.1 member
      rfl
    · have same := numbered.same_of_number_eq sameModules_equivalence published published' rfl
      rw [same.tag_eq] at member
      obtain ⟨original, there, isTagged⟩ := mem_map.1 member
      exact ⟨original, there, isTagged.symm⟩
  · simp [ModuleRegistry.resolve, holds.lookup_eq published (by omega)]
  · rw [ModuleRegistry.snapshotCount, holds.window.length_eq]
    omega
  · rw [holds.window]
    constructor
    · intro bounds
      exact ⟨numbered.exists_number (by omega) bounds.2, by omega⟩
    · rintro ⟨⟨modules, published⟩, newest⟩
      have bounds := numbered.numbers_le _ published
      exact ⟨by omega, bounds.2⟩

/-- Two libraries, one after the other at the same addresses, and room for one generation. -/
def reusedAddresses : List RegistryCall :=
  [.publish [{ start := 0x1000, stop := 0x2000, name := ['a'] }],
    .publish [{ start := 0x1000, stop := 0x2000, name := ['b'] }]]

/-- The address belongs to the second library in the current generation, and the first one is no longer
held. -/
theorem registry_generations_reusedAddresses :
    ∃ run, (registryMachine 0).run (registryMachine 0).init reusedAddresses = some run ∧
    run.registry.generation = 3 ∧
      run.registry.resolve 0x1800 3 false =
        some { generation := 3, start := 0x1000, stop := 0x2000, name := ['b'] } ∧
      2 ∉ run.registry.snapshots := by
  obtain ⟨run, ran⟩ : ∃ run, (registryMachine 0).run (registryMachine 0).init reusedAddresses =
    some run := ⟨_, rfl⟩
  have current : run.registry.generation = 3 := by cases ran; decide
  have published : ([{ start := 0x1000, stop := 0x2000, name := ['b'] }], 3) ∈ run.published := by
    cases ran; decide
  obtain ⟨_, _, _, _, resolves, _, held⟩ := registry_generations (.run .init ran)
  rw [current] at resolves
  exact ⟨run, ran, current, resolves _ published 0x1800, fun old =>
    absurd ((held 2).1 old).2 (by rw [current]; decide)⟩

end MallocHook
