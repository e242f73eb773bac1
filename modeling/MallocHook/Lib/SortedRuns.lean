/-
Module: MallocHook.Lib.SortedRuns
Purpose: Neighbours of a sorted list that share a key, and which outcomes a sort may have.
Trusted boundary: none
Main exports: SortedRuns.splitBy_cons_run, SortedRuns.mem_run_iff
-/
import Mathlib.Data.List.Sort
import Mathlib.Data.List.SplitBy

namespace SortedRuns

open List

variable {α κ : Type*}

/-! ### Runs -/

section

variable (same : α → α → Bool)

/-- A new first element joins the first run or makes one of its own. -/
theorem splitBy_cons_run {a b : α} {rest run : List α} {runs : List (List α)}
    (split : rest.splitBy same = (b :: run) :: runs) :
    (a :: rest).splitBy same =
      if same a b then (a :: b :: run) :: runs else [a] :: (b :: run) :: runs := by
  obtain ⟨rfl, proper, chained, parted⟩ := splitBy_eq_iff.1 split
  split
  · next related =>
      obtain ⟨first, others⟩ := forall_mem_cons.1 chained
      refine splitBy_eq_iff.2 ⟨rfl, by simpa using proper,
        forall_mem_cons.2 ⟨isChain_cons_cons.2 ⟨related, first⟩, others⟩, ?_⟩
      cases runs with
      | nil => exact isChain_singleton _
      | cons next runs =>
          obtain ⟨⟨_, nonempty, boundary⟩, others⟩ := isChain_cons_cons.1 parted
          exact isChain_cons_cons.2 ⟨⟨cons_ne_nil _ _, nonempty, boundary⟩, others⟩
  · next unrelated =>
      have apart := splitBy_append_cons (l := [a]) (run ++ runs.flatten) (by simpa using unrelated)
      exact apart.trans (congrArg ([a] :: ·) split)

end

section

variable [DecidableEq κ] (key : α → κ)

/-- The runs of one key. -/
def runs (list : List α) : List (List α) := list.splitBy fun a b => decide (key a = key b)

variable {key} {list run : List α}

theorem key_eq_of_mem_run (isRun : run ∈ runs key list) {a b : α} (inRun : a ∈ run) (inRun' : b ∈ run) :
    key a = key b := by
  have chain : run.IsChain fun x y => key x = key y :=
    (isChain_of_mem_splitBy isRun).imp fun _ _ equal => by simpa using equal
  have pairwise : run.Pairwise fun x y => key x = key y := by
    have : IsTrans α fun x y => key x = key y := ⟨fun _ _ _ => Eq.trans⟩
    exact isChain_iff_pairwise.1 chain
  have : Std.Symm fun x y : α => key x = key y := ⟨fun _ _ => Eq.symm⟩
  apply List.Pairwise.forall_of_forall _ pairwise inRun inRun'
  intro x _
  rfl

theorem getLast?_flatten {parts : List (List α)} (proper : [] ∉ parts) {b : α}
    (last : b ∈ parts.flatten.getLast?) : ∃ part ∈ parts.getLast?, b ∈ part.getLast? := by
  rcases eq_nil_or_concat parts with rfl | ⟨front, part, rfl⟩
  · cases last
  · have nonempty : part ≠ [] := by
      rintro rfl
      exact proper (by simp)
    rw [concat_eq_append, flatten_append, flatten_singleton,
      List.getLast?_append_of_ne_nil _ nonempty] at last
    exact ⟨part, by simp, last⟩

theorem head?_flatten {parts : List (List α)} (proper : [] ∉ parts) {b : α}
    (first : b ∈ parts.flatten.head?) : ∃ part ∈ parts.head?, b ∈ part.head? := by
  cases parts with
  | nil => cases first
  | cons part later =>
      have nonempty : part ≠ [] := by
        rintro rfl
        exact proper mem_cons_self
      rw [flatten_cons, List.head?_append_of_ne_nil _ nonempty] at first
      exact ⟨part, rfl, first⟩

/-- A run is a stretch of the list, and the elements next to it have another key. -/
theorem run_cut (isRun : run ∈ runs key list) :
    ∃ before after, list = before ++ run ++ after ∧
      (∀ a ∈ run, ∀ b ∈ before.getLast?, key b ≠ key a) ∧
      (∀ a ∈ run, ∀ b ∈ after.head?, key b ≠ key a) := by
  obtain ⟨earlier, later, split⟩ := append_of_mem isRun
  have proper := nil_notMem_splitBy (fun a b => decide (key a = key b)) list
  have parted := isChain_getLast_head_splitBy (fun a b => decide (key a = key b)) list
  unfold runs at split
  rw [split] at parted proper
  obtain ⟨-, fromRun, intoRun⟩ := isChain_append.1 parted
  simp only [mem_append, mem_cons, not_or] at proper
  refine ⟨earlier.flatten, later.flatten, ?_, ?_, ?_⟩
  · rw [← flatten_splitBy (fun a b => decide (key a = key b)) list, split]
    simp
  · intro a inRun b last
    obtain ⟨part, isLast, bLast⟩ := getLast?_flatten proper.1 last
    obtain ⟨nonempty, _, differ⟩ := intoRun part isLast run rfl
    rw [List.getLast?_eq_some_getLast nonempty, Option.mem_some_iff] at bLast
    rw [key_eq_of_mem_run isRun inRun (head_mem _), ← bLast]
    simpa using differ
  · intro a inRun b first
    obtain ⟨part, isFirst, bFirst⟩ := head?_flatten proper.2.2 first
    obtain ⟨full, nonempty, differ⟩ := (isChain_cons.1 fromRun).1 part isFirst
    rw [List.head?_eq_some_head nonempty, Option.mem_some_iff] at bFirst
    rw [key_eq_of_mem_run isRun inRun (getLast_mem full), ← bFirst]
    intro equal
    simp [equal] at differ

/-- Something of the list lies between two elements and has another key. -/
def Parted (key : α → κ) (before : α → α → Prop) (list : List α) (a b : α) : Prop :=
  ∃ c ∈ list, before a c ∧ before c b ∧ key c ≠ key a

/-- In a strictly ordered list a run holds what has the key of one of its members and is not parted from
it. -/
theorem mem_run_iff {before : α → α → Prop} (asymm : ∀ a b, before a b → ¬ before b a)
    (ordered : list.Pairwise before) (isRun : run ∈ runs key list) {a b : α} (inRun : a ∈ run)
    (inList : b ∈ list) :
    b ∈ run ↔ key b = key a ∧ ¬ Parted key before list a b ∧ ¬ Parted key before list b a := by
  obtain ⟨front, back, rfl, frontKey, backKey⟩ := run_cut isRun
  obtain ⟨frontRun, -, toBack⟩ := pairwise_append.1 ordered
  obtain ⟨frontOrdered, -, toRun⟩ := pairwise_append.1 frontRun
  have backOrdered : back.Pairwise before := (pairwise_append.1 ordered).2.1
  -- whatever is ordered between two members of the run belongs to it
  have inside : ∀ {x y : α}, x ∈ run → y ∈ run → key x = key a →
      ¬ Parted key before (front ++ run ++ back) x y := by
    rintro x y inX inY keyX ⟨c, inC, after, until_, differ⟩
    rcases mem_append.1 inC with early | late
    · rcases mem_append.1 early with inFront | within
      · exact asymm _ _ after (toRun c inFront x inX)
      · exact differ (key_eq_of_mem_run isRun within inX)
    · exact asymm _ _ until_ (toBack y (mem_append_right _ inY) c late)
  constructor
  · intro inB
    have equal := key_eq_of_mem_run isRun inB inRun
    exact ⟨equal, inside inRun inB rfl, inside inB inRun equal⟩
  · rintro ⟨equal, forward, backward⟩
    rcases mem_append.1 inList with early | late
    · rcases mem_append.1 early with inFront | within
      · -- the last element before the run stands between
        exfalso
        obtain ⟨start, last, rfl⟩ := eq_nil_or_concat front |>.resolve_left (ne_nil_of_mem inFront)
        rw [concat_eq_append] at *
        have lastKey := frontKey a inRun last (by simp)
        rcases mem_append.1 inFront with earlier | isLast
        · have beforeLast : before b last := (pairwise_append.1 frontOrdered).2.2 b earlier last (by simp)
          exact backward ⟨last, by simp, beforeLast, toRun last (by simp) a inRun,
            fun same => lastKey (same.trans equal)⟩
        · rw [mem_singleton.1 isLast] at equal
          exact lastKey equal
      · exact within
    · exfalso
      obtain ⟨first, rest, rfl⟩ := exists_cons_of_ne_nil (ne_nil_of_mem late)
      have firstKey := backKey a inRun first rfl
      rcases mem_cons.1 late with rfl | later
      · exact firstKey equal
      · exact forward ⟨first, by simp, toBack a (mem_append_right _ inRun) first (by simp),
          (pairwise_cons.1 backOrdered).1 b later, firstKey⟩

end

end SortedRuns

/-! ### What a sort may return -/

variable {α : Type*}

/-- A permutation in which nothing stands before an element that the comparator puts earlier. -/
structure SortOutcome (less : α → α → Bool) (list out : List α) : Prop where
  perm : out.Perm list
  ordered : out.Pairwise fun a b => less b a = false

namespace SortOutcome

open List

variable {less : α → α → Bool} {list list' out out' : List α}

theorem of_perm (outcome : SortOutcome less list out) (shuffled : list.Perm list') :
    SortOutcome less list' out :=
  ⟨outcome.perm.trans shuffled, outcome.ordered⟩

/-- A comparator that tells all elements apart leaves no choice. -/
theorem unique (apart : ∀ a ∈ list, ∀ b ∈ list, less a b = false → less b a = false → a = b)
    (outcome : SortOutcome less list out) (outcome' : SortOutcome less list out') : out = out' := by
  apply List.Perm.eq_of_pairwise _ outcome.ordered outcome'.ordered (outcome.perm.trans outcome'.perm.symm)
  intro a b inOut inOut' notAfter notBefore
  exact apart a (outcome.perm.subset inOut) b (outcome'.perm.subset inOut') notBefore notAfter

section

variable [Std.Total fun a b : α => less b a = false] [IsTrans α fun a b => less b a = false]

variable (less list) in
theorem insertionSort : SortOutcome less list (list.insertionSort fun a b => less b a = false) :=
  ⟨perm_insertionSort _ _, pairwise_insertionSort _ _⟩

/-- Two elements that the comparator does not order may come out either way. -/
theorem exists_before [DecidableEq α] {a b : α} (inList : a ∈ list) (inList' : b ∈ list) (differ : a ≠ b)
    (notAfter : less b a = false) : ∃ out, SortOutcome less list out ∧ [a, b].Sublist out := by
  have front : list.Perm (a :: b :: (list.erase a).erase b) :=
    (perm_cons_erase inList).trans ((perm_cons_erase ((mem_erase_of_ne differ.symm).2 inList')).cons a)
  refine ⟨_, (insertionSort less _).of_perm front.symm, sublist_insertionSort ?_ ?_⟩
  · simpa using notAfter
  · simp

/-- Two elements stand in one order only. -/
theorem not_reversed {a b : α} (nodup : out.Nodup) (forward : [a, b].Sublist out) :
    ¬ [b, a].Sublist out := by
  classical
  have inOrder : out.Pairwise fun x y => out.idxOf x < out.idxOf y :=
    pairwise_iff_getElem.2 fun i j _ _ before => by rwa [nodup.idxOf_getElem, nodup.idxOf_getElem]
  have before := pairwise_pair.1 (inOrder.sublist forward)
  intro backward
  have after := pairwise_pair.1 (inOrder.sublist backward)
  exact Nat.lt_asymm before after

/-- The outcome is determined exactly if no two elements are left unordered. -/
theorem determined_iff [DecidableEq α] (nodup : list.Nodup) :
    (∀ out out', SortOutcome less list out → SortOutcome less list out' → out = out') ↔
      ∀ a ∈ list, ∀ b ∈ list, less a b = false → less b a = false → a = b := by
  constructor
  · intro determined a inList b inList' notBefore notAfter
    by_contra differ
    obtain ⟨out, outcome, forward⟩ := exists_before inList inList' differ notAfter
    obtain ⟨out', outcome', backward⟩ := exists_before inList' inList (Ne.symm differ) notBefore
    cases determined out out' outcome outcome'
    exact not_reversed (outcome.perm.nodup_iff.2 nodup) forward backward
  · intro apart out out' outcome outcome'
    exact outcome.unique apart outcome'

end

end SortOutcome
