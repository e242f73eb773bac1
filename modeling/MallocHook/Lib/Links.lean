/-
Module: MallocHook.Lib.Links
Purpose: Nodes that are linked to one another, and the list one meets by following the links.
Trusted boundary: none
Main exports: Linked, Linked.unique, Linked.nodup, Linked.congr
-/
import Mathlib.Data.List.Basic

/-- The nodes on the way from `start` to the end. -/
inductive Linked {α : Type*} (next : α → Option α) : Option α → List α → Prop
  | stop : Linked next none []
  | link {node : α} {rest : List α} : Linked next (next node) rest → Linked next (some node) (node :: rest)

namespace Linked

open List

variable {α : Type*} {next : α → Option α} {start : Option α} {nodes : List α}

theorem unique {nodes' : List α} (one : Linked next start nodes) (two : Linked next start nodes') :
    nodes = nodes' := by
  induction one generalizing nodes' with
  | stop =>
      cases two
      rfl
  | link _ ih =>
      cases two with
      | link two => rw [ih two]

theorem start_eq_none (linked : Linked next start []) : start = none := by
  cases linked
  rfl

theorem head_eq {node : α} {rest : List α} (linked : Linked next start (node :: rest)) :
    start = some node := by
  cases linked
  rfl

theorem tail {node : α} {rest : List α} (linked : Linked next start (node :: rest)) :
    Linked next (next node) rest := by
  cases linked with
  | link linked => exact linked

/-- The way from a node in the middle. -/
theorem drop {front back : List α} {node : α} (linked : Linked next start (front ++ node :: back)) :
    Linked next (some node) (node :: back) := by
  induction front generalizing start with
  | nil => exact linked.head_eq ▸ linked
  | cons first front ih => exact ih linked.tail

/-- A node that came again would lead round in a circle. -/
theorem nodup (linked : Linked next start nodes) : nodes.Nodup := by
  induction linked with
  | stop => exact .nil
  | @link node rest linked ih =>
      refine nodup_cons.2 ⟨fun again => ?_, ih⟩
      obtain ⟨front, back, rfl⟩ := append_of_mem again
      have circle := (link linked).unique linked.drop
      have lengths := congrArg List.length circle
      simp only [length_cons, length_append] at lengths
      omega

/-- Links that are the same for the nodes on the way. -/
theorem congr {next' : α → Option α} (linked : Linked next start nodes)
    (same : ∀ node ∈ nodes, next' node = next node) : Linked next' start nodes := by
  induction linked with
  | stop => exact .stop
  | link linked ih =>
      obtain ⟨here, later⟩ := forall_mem_cons.1 same
      exact .link (here.symm ▸ ih later)

/-- A node leaves when the link to it is replaced by its own. -/
theorem unlink {next' : α → Option α} {front back : List α} {before node : α}
    (linked : Linked next start (front ++ before :: node :: back)) (replaced : next' before = next node)
    (same : ∀ other ∈ front ++ back, next' other = next other) :
    Linked next' start (front ++ before :: back) := by
  induction front generalizing start with
  | nil =>
      obtain rfl := linked.head_eq
      exact .link (replaced.symm ▸ linked.tail.tail.congr same)
  | cons first front ih =>
      obtain rfl := linked.head_eq
      obtain ⟨here, later⟩ := forall_mem_cons.1 same
      exact .link (here.symm ▸ ih linked.tail later)

/-- A property of the first node that the links keep. -/
theorem forall_mem {P : α → Prop} (linked : Linked next start nodes)
    (first : ∀ node, start = some node → P node)
    (kept : ∀ node node', next node = some node' → P node → P node') : ∀ node ∈ nodes, P node := by
  induction linked with
  | stop => simp
  | @link node rest _ ih =>
      have here := first node rfl
      exact forall_mem_cons.2 ⟨here, ih fun node' linked => kept node node' linked here⟩

/-- A transitive relation from each node to the one that it links to. -/
theorem pairwise {R : α → α → Prop} (linked : Linked next start nodes)
    (related : ∀ {node node' : α}, next node = some node' → R node node')
    (trans : ∀ {one two three : α}, R one two → R two three → R one three) : nodes.Pairwise R := by
  induction linked with
  | stop => exact .nil
  | @link node rest linked ih =>
      refine pairwise_cons.2 ⟨?_, ih⟩
      exact linked.forall_mem (fun node' first => related first) fun one two linked before =>
        trans before (related linked)

/-- If every link makes progress, the end is reached, after no more nodes than there is progress to make. -/
theorem exists_of_progress {left : α → Nat}
    (progress : ∀ {node node' : α}, next node = some node' → left node' < left node) :
    ∀ start : Option α, ∃ nodes, Linked next start nodes ∧ ∀ node, start = some node →
    nodes.length ≤ left node + 1
  | none => ⟨[], .stop, by simp⟩
  | some node => by
      induction bound : left node using Nat.strongRecOn generalizing node with
      | ind n ih =>
          subst bound
          cases linked : next node with
          | none => exact ⟨[node], .link (linked ▸ .stop), fun _ same => by cases same; simp⟩
          | some node' =>
              obtain ⟨nodes, reached, few⟩ := ih (left node') (progress linked) node' rfl
              refine ⟨node :: nodes, .link (linked ▸ reached), fun _ same => ?_⟩
              cases same
              have := few node' rfl
              have := progress linked
              rw [length_cons]
              omega

end Linked
