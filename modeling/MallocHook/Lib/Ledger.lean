/-
Module: MallocHook.Lib.Ledger
Purpose: Totals of weights over finite maps and over sharded finite maps, and how insertions and
  erasures move them.
Trusted boundary: none
Main exports: Ledger.total, Ledger.AllValues, Sharded
-/
import Mathlib.Data.List.AList
import Mathlib.Data.Fintype.BigOperators
import Mathlib.Tactic.Abel

namespace Ledger

variable {κ β M : Type*}

/-- Changing one member of a finite family changes the sum over the family by that member only. -/
theorem sum_update_add {ι : Type*} [Fintype ι] [DecidableEq ι] [AddCommMonoid M] (f : β → M)
    (family : ι → β) (i : ι) (value : β) :
    (∑ j, f (Function.update family i value j)) + f (family i) = (∑ j, f (family j)) + f value := by
  simp only [Function.apply_update fun _ => f]
  rw [Finset.sum_update_of_mem (Finset.mem_univ i), Finset.sum_eq_add_sum_sdiff_singleton_of_mem
    (Finset.mem_univ i) fun j => f (family j)]
  abel

/-- The weights of all values of a finite map, added up. -/
def total [AddCommMonoid M] (weight : β → M) (m : AList fun _ : κ => β) : M :=
  (m.entries.map fun entry => weight entry.2).sum

/-- The weight a map holds at a key: zero when the key is absent. -/
def weightAt [DecidableEq κ] [AddCommMonoid M] (weight : β → M) (m : AList fun _ : κ => β) (key : κ) : M :=
  (m.lookup key).elim 0 weight

@[simp] theorem total_empty [AddCommMonoid M] (weight : β → M) :
    total weight (∅ : AList fun _ : κ => β) = 0 := rfl

private theorem total_kerase [DecidableEq κ] [AddCommMonoid M] (weight : β → M) (key : κ) :
    ∀ entries : List (Sigma fun _ : κ => β),
      ((entries.dlookup key).elim 0 weight) +
          ((entries.kerase key).map fun entry => weight entry.2).sum =
        (entries.map fun entry => weight entry.2).sum
  | [] => by simp
  | ⟨k, v⟩ :: rest => by
      by_cases here : key = k
      · subst here
        simp [List.dlookup_cons_eq, List.kerase_cons_eq]
      · rw [List.dlookup_cons_ne rest ⟨k, v⟩ here, List.kerase_cons_ne here]
        simp only [List.map_cons, List.sum_cons]
        rw [← total_kerase weight key rest, add_left_comm]

/-- Erasing a key takes the weight held there out of the total. -/
theorem weightAt_add_total_erase [DecidableEq κ] [AddCommMonoid M] (weight : β → M)
    (m : AList fun _ : κ => β) (key : κ) :
    weightAt weight m key + total weight (m.erase key) = total weight m :=
  total_kerase weight key m.entries

section

variable [DecidableEq κ] [AddCommGroup M]

/-- Erasing a key, as a difference. -/
theorem total_erase (weight : β → M) (m : AList fun _ : κ => β) (key : κ) :
    total weight (m.erase key) = total weight m - weightAt weight m key := by
  rw [← weightAt_add_total_erase weight m key]
  abel

/-- Inserting replaces the weight held at the key by the new one. -/
theorem total_insert (weight : β → M) (m : AList fun _ : κ => β) (key : κ) (value : β) :
    total weight (m.insert key value) = total weight m - weightAt weight m key + weight value := by
  have entries : total weight (m.insert key value) =
      weight value + total weight (m.erase key) := by
    rw [total, AList.entries_insert, List.map_cons, List.sum_cons]
    rfl
  rw [entries, total_erase]
  abel

end

/-! ### A property of all values -/

/-- Every value the map holds has the property. -/
def AllValues (p : β → Prop) [DecidableEq κ] (m : AList fun _ : κ => β) : Prop :=
  ∀ key value, m.lookup key = some value → p value

namespace AllValues

variable [DecidableEq κ] {p : β → Prop} {m : AList fun _ : κ => β}

theorem empty : AllValues p (∅ : AList fun _ : κ => β) := by
  intro key value held
  rw [AList.lookup_empty] at held
  cases held

theorem insert (all : AllValues p m) (key : κ) {value : β} (holds : p value) :
    AllValues p (m.insert key value) := by
  intro other value' held
  by_cases here : other = key
  · subst here
    rw [AList.lookup_insert] at held
    cases held
    exact holds
  · rw [AList.lookup_insert_ne here] at held
    exact all other value' held

theorem erase (all : AllValues p m) (key : κ) : AllValues p (m.erase key) := by
  intro other value held
  by_cases here : other = key
  · subst here
    rw [AList.lookup_erase] at held
    cases held
  · rw [AList.lookup_erase_ne here] at held
    exact all other value held

theorem foldl_erase (all : AllValues p m) (keys : List κ) :
    AllValues p (keys.foldl (fun m key => m.erase key) m) := by
  induction keys generalizing m with
  | nil => exact all
  | cons key rest ih => exact ih (all.erase key)

end AllValues

end Ledger

/-- A finite map split over shards. -/
abbrev Sharded (ι κ β : Type*) := ι → AList fun _ : κ => β

namespace Sharded

open Ledger

variable {ι κ β M : Type*} [DecidableEq ι] [DecidableEq κ]

/-- The value of a key, looked up in its home shard. -/
def find (home : κ → ι) (shards : Sharded ι κ β) (key : κ) : Option β :=
  (shards (home key)).lookup key

/-- Store a value in the home shard of its key. -/
def put (home : κ → ι) (shards : Sharded ι κ β) (key : κ) (value : β) : Sharded ι κ β :=
  Function.update shards (home key) ((shards (home key)).insert key value)

/-- Erase a key from its home shard. -/
def drop (home : κ → ι) (shards : Sharded ι κ β) (key : κ) : Sharded ι κ β :=
  Function.update shards (home key) ((shards (home key)).erase key)

variable {home : κ → ι} {shards : Sharded ι κ β}

@[simp] theorem find_put_self (key : κ) (value : β) :
    find home (put home shards key value) key = some value := by
  simp [find, put]

theorem find_put_of_ne {key other : κ} (value : β) (differ : other ≠ key) :
    find home (put home shards key value) other = find home shards other := by
  unfold find put
  by_cases same : home other = home key
  · rw [same, Function.update_self, AList.lookup_insert_ne differ]
  · rw [Function.update_of_ne same]

theorem find_put (key other : κ) (value : β) :
    find home (put home shards key value) other =
      if other = key then some value else find home shards other := by
  split
  · next same => rw [same, find_put_self]
  · next differ => exact find_put_of_ne value differ

@[simp] theorem find_drop_self (key : κ) : find home (drop home shards key) key = none := by
  simp [find, drop]

theorem find_drop_of_ne {key other : κ} (differ : other ≠ key) :
    find home (drop home shards key) other = find home shards other := by
  unfold find drop
  by_cases same : home other = home key
  · rw [same, Function.update_self, AList.lookup_erase_ne differ]
  · rw [Function.update_of_ne same]

theorem find_drop (key other : κ) :
    find home (drop home shards key) other = if other = key then none else find home shards other := by
  split
  · next same => rw [same, find_drop_self]
  · next differ => exact find_drop_of_ne differ

/-! ### Every key at home -/

/-- Every key that some shard holds sits in its home shard. -/
def AtHome (home : κ → ι) (shards : Sharded ι κ β) : Prop :=
  ∀ i key, key ∈ shards i → home key = i

omit [DecidableEq ι] [DecidableEq κ] in
theorem AtHome.empty (home : κ → ι) : AtHome home (fun _ => (∅ : AList fun _ : κ => β)) :=
  fun _ key member => absurd member (AList.notMem_empty key)

omit [DecidableEq κ] in
theorem AtHome.update (atHome : AtHome home shards) {i : ι} {shard : AList fun _ : κ => β}
    (stays : ∀ key ∈ shard, home key = i) : AtHome home (Function.update shards i shard) := by
  intro j key member
  by_cases here : j = i
  · subst here
    rw [Function.update_self] at member
    exact stays key member
  · rw [Function.update_of_ne here] at member
    exact atHome j key member

theorem AtHome.put (atHome : AtHome home shards) (key : κ) (value : β) :
    AtHome home (shards.put home key value) :=
  atHome.update fun other member => ((AList.mem_insert _).1 member).elim (congrArg home) (atHome _ other)

theorem AtHome.drop (atHome : AtHome home shards) (key : κ) : AtHome home (shards.drop home key) :=
  atHome.update fun other member => atHome _ other (AList.mem_erase.1 member).2

omit [DecidableEq ι] in
/-- A key at home has a value in at most one shard, the one `find` looks in. -/
theorem AtHome.lookup_eq (atHome : AtHome home shards) {i : ι} {key : κ} {value : β}
    (held : (shards i).lookup key = some value) : i = home key ∧ find home shards key = some value := by
  have member : key ∈ shards i := AList.lookup_isSome.1 (by rw [held]; rfl)
  have here := atHome i key member
  subst here
  exact ⟨rfl, held⟩

/-! ### Totals over all shards -/

variable [Fintype ι]

/-- The weights of all values in all shards, added up. -/
def total [AddCommMonoid M] (weight : β → M) (shards : Sharded ι κ β) : M :=
  ∑ i, Ledger.total weight (shards i)

omit [DecidableEq ι] [DecidableEq κ] in
@[simp] theorem total_empty [AddCommMonoid M] (weight : β → M) :
    total weight (fun _ : ι => (∅ : AList fun _ : κ => β)) = 0 := by
  simp [total]

section

variable [AddCommGroup M]

omit [DecidableEq κ] in
private theorem total_update (weight : β → M) (i : ι) (shard : AList fun _ : κ => β) :
    total weight (Function.update shards i shard) =
      total weight shards - Ledger.total weight (shards i) + Ledger.total weight shard := by
  have moved := sum_update_add (Ledger.total weight) shards i shard
  unfold total
  rw [eq_sub_of_add_eq moved]
  abel

/-- Storing a value replaces the weight its key had. -/
theorem total_put (weight : β → M) (key : κ) (value : β) :
    total weight (shards.put home key value) =
      total weight shards - (find home shards key).elim 0 weight + weight value := by
  unfold put
  rw [total_update, Ledger.total_insert]
  unfold find weightAt
  abel

/-- Erasing a key takes its weight out. -/
theorem total_drop (weight : β → M) (key : κ) :
    total weight (shards.drop home key) = total weight shards - (find home shards key).elim 0 weight := by
  unfold drop
  rw [total_update, Ledger.total_erase]
  unfold find weightAt
  abel

end

end Sharded
