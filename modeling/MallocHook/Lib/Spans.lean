/-
Module: MallocHook.Lib.Spans
Purpose: Spans written as two marks that a reader pairs up again by name, first in, first out. In a
  bracketed stream it pairs them rightly.
Trusted boundary: none
Main exports: SpanPhase, Mark, Spans.Bracketed, Spans.Alternates
-/
import Mathlib.Data.List.Perm.Basic

inductive SpanPhase where
  | begins
  | ends
deriving DecidableEq, Repr

/-- A mark in the stream: where a span of some owner begins or ends, under a name. -/
structure Mark (ν ρ : Type*) where
  phase : SpanPhase
  name : ν
  owner : ρ
deriving DecidableEq, Repr

namespace Spans

open List Function

variable {ν ρ : Type*} [DecidableEq ν]

/-! ### Bracketed streams -/

/-- What has to be open under the name for a mark to be in order. -/
def expects (mark : Mark ν ρ) : Option ρ :=
  match mark.phase with
  | .begins => none
  | .ends => some mark.owner

/-- Whose span is open under each name, after one more mark. -/
def note (opened : ν → Option ρ) (mark : Mark ν ρ) : ν → Option ρ :=
  update opened mark.name
    (match mark.phase with
    | .begins => some mark.owner
    | .ends => none)

/-- Whose span is open under each name, after a stream. -/
def after (opened : ν → Option ρ) (marks : List (Mark ν ρ)) : ν → Option ρ := marks.foldl note opened

/-- Spans begin under names that are not open and end where they are open. -/
def Bracketed : (ν → Option ρ) → List (Mark ν ρ) → Prop
  | _, [] => True
  | opened, mark :: rest => opened mark.name = expects mark ∧ Bracketed (note opened mark) rest

theorem after_append (opened : ν → Option ρ) (first second : List (Mark ν ρ)) :
    after opened (first ++ second) = after (after opened first) second :=
  foldl_append

theorem bracketed_append {opened : ν → Option ρ} {first second : List (Mark ν ρ)} :
    Bracketed opened (first ++ second) ↔ Bracketed opened first ∧ Bracketed (after opened first) second := by
  induction first generalizing opened with
  | nil => simp [Bracketed, after]
  | cons mark rest ih =>
      rw [cons_append, Bracketed, Bracketed, ih, and_assoc]
      rfl

/-! ### Alternation -/

/-- Beginning, end, beginning, end, and so on to an end. -/
def Alternates : List SpanPhase → Prop
  | [] => True
  | .begins :: .ends :: rest => Alternates rest
  | _ => False

/-- The phases of the marks under a name. -/
def phasesOf (name : ν) (marks : List (Mark ν ρ)) : List SpanPhase :=
  (marks.filter fun mark => mark.name = name).map Mark.phase

/-- In a bracketed stream that leaves a name closed the marks of the name alternate. -/
theorem alternates_of_bracketed {name : ν} {opened : ν → Option ρ} {marks : List (Mark ν ρ)}
    (bracketed : Bracketed opened marks) (closed : after opened marks name = none) :
    if opened name = none then Alternates (phasesOf name marks)
    else Alternates (.begins :: phasesOf name marks) := by
  induction marks generalizing opened with
  | nil =>
      rw [if_pos (show opened name = none from closed)]
      trivial
  | cons mark rest ih =>
      obtain ⟨inOrder, restBracketed⟩ := bracketed
      have later := ih restBracketed closed
      by_cases here : mark.name = name
      · subst here
        rw [phasesOf, filter_cons_of_pos (by simp), map_cons]
        unfold expects at inOrder
        cases phase : mark.phase with
        | begins =>
            rw [phase] at inOrder
            rw [if_neg (by simp [note, phase])] at later
            rw [if_pos inOrder]
            exact later
        | ends =>
            rw [phase] at inOrder
            rw [if_pos (by simp [note, phase])] at later
            rw [if_neg (by simp [inOrder])]
            exact later
      · rw [phasesOf, filter_cons_of_neg (by simpa using here)]
        have unchanged : note opened mark name = opened name := update_of_ne (Ne.symm here) _ _
        rwa [unchanged] at later

/-! ### Pairing by name -/

section

variable {ε : Type*} (mark : ε → Mark ν ρ)

/-- The reader: a beginning joins the list of its name, an end takes the first of that list. -/
def pairs (waiting : ν → List ε) : List ε → List (ε × ε)
  | [] => []
  | event :: rest =>
      match (mark event).phase with
      | .begins =>
          pairs (update waiting (mark event).name (waiting (mark event).name ++ [event])) rest
      | .ends =>
          match waiting (mark event).name with
          | [] => pairs waiting rest
          | first :: later =>
              (first, event) :: pairs (update waiting (mark event).name later) rest

/-- The lists of the reader have the beginnings of the open spans. -/
def Waits (opened : ν → Option ρ) (waiting : ν → List ε) : Prop :=
  ∀ name, (opened name = none → waiting name = []) ∧
    ∀ owner, opened name = some owner → ∃ event, waiting name = [event] ∧ mark event = ⟨.begins, name, owner⟩

variable {mark} {opened : ν → Option ρ} {waiting : ν → List ε} {event : ε}

theorem Waits.begins (waits : Waits mark opened waiting) (isBegin : (mark event).phase = .begins)
    (inOrder : opened (mark event).name = none) :
    Waits mark (note opened (mark event))
      (update waiting (mark event).name (waiting (mark event).name ++ [event])) := by
  intro name
  by_cases here : name = (mark event).name
  · subst here
    rw [note, update_self, update_self, isBegin, (waits _).1 inOrder]
    refine ⟨fun closed => by simp at closed, fun owner isOwner => ⟨event, rfl, ?_⟩⟩
    cases isOwner
    rw [← isBegin]
  · rw [note, update_of_ne here, update_of_ne here]
    exact waits name

theorem Waits.ends (waits : Waits mark opened waiting) (isEnd : (mark event).phase = .ends) :
    Waits mark (note opened (mark event)) (update waiting (mark event).name []) := by
  intro name
  by_cases here : name = (mark event).name
  · subst here
    rw [note, update_self, update_self, isEnd]
    exact ⟨fun _ => rfl, fun owner isOwner => by simp at isOwner⟩
  · rw [note, update_of_ne here, update_of_ne here]
    exact waits name

/-- What is ordered in the stream is ordered in the pairs. -/
theorem pairs_ordered {R : ε → ε → Prop} {events : List ε} (ordered : events.Pairwise R)
    (earlier : ∀ name, ∀ first ∈ waiting name, ∀ event ∈ events, R first event) :
    ∀ pair ∈ pairs mark waiting events, R pair.1 pair.2 := by
  induction events generalizing waiting with
  | nil => simp [pairs]
  | cons event rest ih =>
      obtain ⟨before, ordered⟩ := pairwise_cons.1 ordered
      have earlierRest : ∀ name, ∀ first ∈ waiting name, ∀ event ∈ rest, R first event :=
        fun name first member later isLater => earlier name first member later (mem_cons_of_mem _ isLater)
      simp only [pairs]
      split
      · refine ih ordered fun name first member => ?_
        by_cases here : name = (mark event).name
        · rw [here, update_self] at member
          rcases mem_append.1 member with waited | new
          · exact earlierRest _ first waited
          · exact mem_singleton.1 new ▸ before
        · rw [update_of_ne here] at member
          exact earlierRest name first member
      · split
        · exact ih ordered earlierRest
        · next first later isWaiting =>
            intro pair member
            rcases mem_cons.1 member with same | paired
            · rw [same]
              exact earlier (mark event).name first (isWaiting ▸ mem_cons_self) event mem_cons_self
            · refine ih ordered (fun name waited member => ?_) pair paired
              by_cases here : name = (mark event).name
              · rw [here, update_self] at member
                exact earlierRest _ waited (isWaiting ▸ mem_cons_of_mem first member)
              · rw [update_of_ne here] at member
                exact earlierRest name waited member

variable [DecidableEq ε]

/-- What the reader makes of a bracketed stream: every end is paired, with the beginning of the same span,
and every beginning once. -/
theorem pairs_spec {events : List ε} (bracketed : Bracketed opened (events.map mark))
    (closed : ∀ name, after opened (events.map mark) name = none) (waits : Waits mark opened waiting) :
    (pairs mark waiting events).map Prod.snd = events.filter (fun event => (mark event).phase = .ends) ∧
      (∀ pair ∈ pairs mark waiting events, (mark pair.1).phase = .begins ∧
        (mark pair.1).name = (mark pair.2).name ∧ (mark pair.1).owner = (mark pair.2).owner) ∧
      ∀ event, ((pairs mark waiting events).map Prod.fst).count event =
        (waiting (mark event).name).count event +
          (events.filter fun event => (mark event).phase = .begins).count event := by
  induction events generalizing opened waiting with
  | nil =>
      refine ⟨rfl, by simp [pairs], fun event => ?_⟩
      simp [pairs, (waits _).1 (closed (mark event).name)]
  | cons event rest ih =>
      obtain ⟨inOrder, restBracketed⟩ := bracketed
      unfold expects at inOrder
      cases phase : (mark event).phase with
      | begins =>
          rw [phase] at inOrder
          obtain ⟨ends, paired, counts⟩ := ih restBracketed closed (waits.begins phase inOrder)
          simp only [pairs, phase]
          refine ⟨?_, paired, fun other => ?_⟩
          · rw [ends, filter_cons_of_neg (by simp [phase])]
          · rw [counts other, filter_cons_of_pos (by simp [phase]), count_cons]
            by_cases here : (mark other).name = (mark event).name
            · rw [here, update_self, (waits _).1 inOrder, nil_append, count_nil, count_singleton]
              omega
            · have differs : ¬event = other := fun same => here (congrArg (fun e => (mark e).name) same.symm)
              rw [update_of_ne here, if_neg (by simpa using differs)]
              omega
      | ends =>
          rw [phase] at inOrder
          obtain ⟨first, isFirst, begun⟩ := (waits _).2 _ inOrder
          obtain ⟨ends, paired, counts⟩ := ih restBracketed closed (waits.ends phase)
          simp only [pairs, phase, isFirst]
          refine ⟨?_, ?_, fun other => ?_⟩
          · rw [map_cons, ends, filter_cons_of_pos (by simp [phase])]
          · intro pair member
            rcases mem_cons.1 member with same | later
            · rw [same, begun]
              exact ⟨rfl, rfl, rfl⟩
            · exact paired pair later
          · rw [map_cons, count_cons, counts other, filter_cons_of_neg (by simp [phase])]
            by_cases here : (mark other).name = (mark event).name
            · rw [here, update_self, isFirst, count_nil, count_singleton, Nat.zero_add, Nat.add_comm]
            · have differs : ¬first = other := fun same => by
                rw [← same, begun] at here
                exact here rfl
              rw [update_of_ne here, if_neg (by simpa using differs)]
              omega

/-- The reader pairs every beginning with the end of its span, once, in the order of the ends. -/
theorem pairs_of_bracketed {events : List ε} (bracketed : Bracketed (fun _ => none) (events.map mark))
    (closed : ∀ name, after (fun _ => none) (events.map mark) name = none) :
    (pairs mark (fun _ => []) events).map Prod.snd =
        events.filter (fun event => (mark event).phase = .ends) ∧
      ((pairs mark (fun _ => []) events).map Prod.fst).Perm
        (events.filter fun event => (mark event).phase = .begins) ∧
      ∀ pair ∈ pairs mark (fun _ => []) events, (mark pair.1).owner = (mark pair.2).owner := by
  have waits : Waits mark (fun _ => none) fun _ => [] := fun name => ⟨fun _ => rfl, fun owner isOwner => by
    cases isOwner⟩
  obtain ⟨ends, paired, counts⟩ := pairs_spec bracketed closed waits
  refine ⟨ends, perm_iff_count.2 fun event => ?_, fun pair member => (paired pair member).2.2⟩
  rw [counts event, count_nil, Nat.zero_add]

end

end Spans
