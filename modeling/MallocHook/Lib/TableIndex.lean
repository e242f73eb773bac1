/-
Module: MallocHook.Lib.TableIndex
Purpose: What is kept beside a finite map of entries: an index by a key of their own, and lists of the
  ids of one kind.
Trusted boundary: none
Main exports: Indexes, Indexes.insert, Indexes.assign
-/
import Mathlib.Data.List.AList

variable {ι κ β : Type*} [DecidableEq ι] {table : AList fun _ : ι => β}

/-! ### An index by key -/

variable {id : ι} {value : β}

section

variable [DecidableEq κ] {live : β → Option κ} {index : AList fun _ : κ => ι}

/-- The index finds exactly the live entries of the table, each by its key. -/
def Indexes (live : β → Option κ) (table : AList fun _ : ι => β) (index : AList fun _ : κ => ι) : Prop :=
  ∀ key id, index.lookup key = some id ↔ (table.lookup id).bind live = some key

namespace Indexes

theorem empty : Indexes live (∅ : AList fun _ : ι => β) (∅ : AList fun _ : κ => ι) := by
  intro key id
  simp

variable (indexes : Indexes live table index)
include indexes

/-- A new entry under a key that is not in use. -/
theorem insert {id : ι} {value : β} {key : κ} (absent : table.lookup id = none)
    (unused : index.lookup key = none) (isLive : live value = some key) :
    Indexes live (table.insert id value) (index.insert key id) := by
  intro key' id'
  by_cases here : id' = id
  · subst here
    rw [AList.lookup_insert, Option.bind_some, isLive]
    by_cases same : key' = key
    · subst same
      simp
    · have notFound : index.lookup key' ≠ some id' := fun found => by
        have isThere := (indexes key' id').1 found
        rw [absent] at isThere
        cases isThere
      rw [AList.lookup_insert_ne same]
      simp [notFound, Ne.symm same]
  · rw [AList.lookup_insert_ne here]
    by_cases same : key' = key
    · subst same
      have notThere : (table.lookup id').bind live ≠ some key' := fun isThere => by
        have found := (indexes key' id').2 isThere
        rw [unused] at found
        cases found
      rw [AList.lookup_insert]
      simp [notThere, Ne.symm here]
    · rw [AList.lookup_insert_ne same]
      exact indexes key' id'

/-- An entry is replaced by one with the same key. -/
theorem assign (same : (table.lookup id).bind live = live value) :
    Indexes live (table.insert id value) index := by
  intro key id'
  by_cases here : id' = id
  · subst here
    rw [AList.lookup_insert, Option.bind_some, ← same]
    exact indexes key id'
  · rw [AList.lookup_insert_ne here]
    exact indexes key id'

/-- The index forgets the key of an entry that is no longer live. -/
private theorem forget {table' : AList fun _ : ι => β} {key : κ} (found : index.lookup key = some id)
    (gone : (table'.lookup id).bind live = none)
    (others : ∀ id', id' ≠ id → table'.lookup id' = table.lookup id') :
    Indexes live table' (index.erase key) := by
  have isThere := (indexes key id).1 found
  intro key' id'
  by_cases here : id' = id
  · subst here
    rw [gone]
    refine iff_of_false (fun erased => ?_) (by simp)
    by_cases same : key' = key
    · subst same
      rw [AList.lookup_erase] at erased
      cases erased
    · rw [AList.lookup_erase_ne same] at erased
      exact same (Option.some.inj (((indexes key' id').1 erased).symm.trans isThere))
  · rw [others id' here]
    by_cases same : key' = key
    · subst same
      rw [AList.lookup_erase]
      refine iff_of_false (by simp) (fun otherThere => ?_)
      exact here (Option.some.inj (((indexes key' id').2 otherThere).symm.trans found))
    · rw [AList.lookup_erase_ne same]
      exact indexes key' id'

/-- A live entry is replaced by one that is not. -/
theorem retire {key : κ} (found : index.lookup key = some id) (notLive : live value = none) :
    Indexes live (table.insert id value) (index.erase key) :=
  indexes.forget found (by rw [AList.lookup_insert, Option.bind_some, notLive])
    fun _ other => AList.lookup_insert_ne other

/-- A live entry is taken out. -/
theorem erase {id : ι} {key : κ} (found : index.lookup key = some id) :
    Indexes live (table.erase id) (index.erase key) :=
  indexes.forget found (by rw [AList.lookup_erase, Option.bind_none]) fun _ other =>
    AList.lookup_erase_ne other

/-- An entry that is not live is taken out. -/
theorem erase_notLive (notLive : (table.lookup id).bind live = none) :
    Indexes live (table.erase id) index := by
  intro key id'
  by_cases here : id' = id
  · subst here
    rw [AList.lookup_erase, Option.bind_none, ← notLive]
    exact indexes key id'
  · rw [AList.lookup_erase_ne here]
    exact indexes key id'

end Indexes

end

/-! ### The ids of a kind -/

/-- The list has the id of every entry of the kind, once. -/
structure ListsKeys (kind : β → Prop) (table : AList fun _ : ι => β) (ids : List ι) : Prop where
  nodup : ids.Nodup
  mem : ∀ id, id ∈ ids ↔ ∃ value, table.lookup id = some value ∧ kind value

namespace ListsKeys

variable {kind : β → Prop} {ids : List ι}

theorem empty : ListsKeys kind (∅ : AList fun _ : ι => β) [] := ⟨List.nodup_nil, fun id => by simp⟩

variable (lists : ListsKeys kind table ids)
include lists

theorem absent (missing : table.lookup id = none) : id ∉ ids := by
  intro member
  obtain ⟨value, held, -⟩ := (lists.mem id).1 member
  rw [missing] at held
  cases held

/-- An entry of another kind is not in the list. -/
theorem other (held : table.lookup id = some value) (notKind : ¬kind value) : id ∉ ids := by
  intro member
  obtain ⟨value', held', isKind⟩ := (lists.mem id).1 member
  rw [held] at held'
  exact notKind (Option.some.inj held' ▸ isKind)

/-- An entry becomes one of the kind. -/
theorem join (new : id ∉ ids) (isKind : kind value) :
    ListsKeys kind (table.insert id value) (ids ++ [id]) where
  nodup := lists.nodup.append (List.nodup_singleton id) (by simpa using new)
  mem id' := by
    rw [List.mem_append, List.mem_singleton, lists.mem id']
    by_cases here : id' = id
    · subst here
      simp [isKind]
    · simp [AList.lookup_insert_ne here, here]

/-- An entry becomes one of another kind. -/
theorem leave (id : ι) (notKind : ¬kind value) :
    ListsKeys kind (table.insert id value) (ids.erase id) where
  nodup := lists.nodup.erase id
  mem id' := by
    rw [lists.nodup.mem_erase_iff, lists.mem id']
    by_cases here : id' = id
    · subst here
      simp [notKind]
    · simp [AList.lookup_insert_ne here, here]

/-- An entry of another kind is put in, or replaced. -/
theorem assign (notListed : id ∉ ids) (notKind : ¬kind value) :
    ListsKeys kind (table.insert id value) ids :=
  List.erase_of_not_mem notListed ▸ lists.leave id notKind

/-- An entry is taken out. -/
theorem erase (id : ι) : ListsKeys kind (table.erase id) (ids.erase id) where
  nodup := lists.nodup.erase id
  mem id' := by
    rw [lists.nodup.mem_erase_iff, lists.mem id']
    by_cases here : id' = id
    · subst here
      simp
    · simp [AList.lookup_erase_ne here, here]

/-- Removing an id from the list. -/
theorem filter_ne (id : ι) : ids.filter (· ≠ id) = ids.erase id := by
  rw [lists.nodup.erase_eq_filter]
  exact List.filter_congr fun other _ => by rw [bne, beq_eq_decide, decide_not]

end ListsKeys

/-- Three lists whose kinds cover all entries are together at least as long as the table. -/
theorem length_keys_le_of_lists {first second third : β → Prop} {a b c : List ι}
    (inFirst : ListsKeys first table a) (inSecond : ListsKeys second table b)
    (inThird : ListsKeys third table c) (covers : ∀ value, first value ∨ second value ∨ third value) :
    table.keys.length ≤ a.length + b.length + c.length := by
  have within : table.keys ⊆ a ++ b ++ c := by
    intro id member
    obtain ⟨value, held⟩ := Option.isSome_iff_exists.1 (AList.lookup_isSome.2 (AList.mem_keys.2 member))
    rw [List.mem_append, List.mem_append]
    rcases covers value with isFirst | isSecond | isThird
    · exact .inl (.inl ((inFirst.mem id).2 ⟨value, held, isFirst⟩))
    · exact .inl (.inr ((inSecond.mem id).2 ⟨value, held, isSecond⟩))
    · exact .inr ((inThird.mem id).2 ⟨value, held, isThird⟩)
  have bound := (List.subperm_of_subset table.keys_nodup within).length_le
  rwa [List.length_append, List.length_append] at bound
