/-
Module: MallocHook.Lib.LineStream
Purpose: Reading a text line by line while it arrives in pieces, with an unbounded buffer or one of
  fixed size. `Refill.meaning` is the result as a function of the text.
Trusted boundary: none
Main exports: LineStream.cut, LineStream.pour, Refill
-/
import Mathlib.Logic.Function.Iterate
import Mathlib.Tactic.Common

namespace LineStream

open List

variable {α σ : Type*} [DecidableEq α] (newline : α)

/-- The complete lines of a text, and what follows the last newline. -/
def cut : List α → List (List α) × List α
  | [] => ([], [])
  | a :: rest =>
      if a = newline then ([] :: (cut rest).1, (cut rest).2)
      else
        match (cut rest).1 with
        | [] => ([], a :: (cut rest).2)
        | line :: more => ((a :: line) :: more, (cut rest).2)

variable {newline}

@[simp] theorem cut_nil : cut newline [] = ([], []) := rfl

theorem cut_cons_newline (rest : List α) :
    cut newline (newline :: rest) = ([] :: (cut newline rest).1, (cut newline rest).2) :=
  if_pos rfl

/-- How a text begins when its first character is no newline depends on how the rest is cut only. -/
theorem cut_cons_congr {a : α} {rest rest' : List α} (same : cut newline rest = cut newline rest') :
    cut newline (a :: rest) = cut newline (a :: rest') := by
  simp only [cut, same]

/-- What has no newline has no complete line. -/
theorem cut_of_not_mem {text : List α} (absent : newline ∉ text) : cut newline text = ([], text) := by
  induction text with
  | nil => rfl
  | cons a rest ih =>
      rw [mem_cons, not_or] at absent
      simp only [cut, ih absent.2]
      rw [if_neg (Ne.symm absent.1)]

/-- What comes before the first newline belongs to the first line. -/
theorem cut_append_of_line {first second line : List α} {more : List (List α)} (absent : newline ∉ first)
    (lines : (cut newline second).1 = line :: more) :
    cut newline (first ++ second) = ((first ++ line) :: more, (cut newline second).2) := by
  induction first with
  | nil => exact Prod.ext lines rfl
  | cons a first ih =>
      rw [mem_cons, not_or] at absent
      simp only [cons_append, cut, ih absent.2]
      rw [if_neg (Ne.symm absent.1)]

/-- A line ends at its newline. -/
theorem cut_line {line : List α} (absent : newline ∉ line) (rest : List α) :
    cut newline (line ++ newline :: rest) = (line :: (cut newline rest).1, (cut newline rest).2) := by
  have lines := cut_append_of_line absent (congrArg Prod.fst (cut_cons_newline rest))
  rwa [append_nil, cut_cons_newline] at lines

/-- The lines of a text come first; the rest of it goes on with what is appended. -/
theorem cut_append (first second : List α) :
    cut newline (first ++ second) =
      ((cut newline first).1 ++ (cut newline ((cut newline first).2 ++ second)).1,
        (cut newline ((cut newline first).2 ++ second)).2) := by
  induction first with
  | nil => rfl
  | cons a first ih =>
      by_cases ends : a = newline
      · subst ends
        rw [cons_append, cut_cons_newline, ih, cut_cons_newline]
        rfl
      · cases lines : (cut newline first).1 with
        | nil =>
            have begins : cut newline (a :: first) = ([], a :: (cut newline first).2) := by
              simp only [cut, lines]
              rw [if_neg ends]
            rw [begins, nil_append, cons_append, cons_append]
            apply cut_cons_congr
            rw [ih, lines, nil_append]
        | cons line more =>
            have begins : cut newline (a :: first) = ((a :: line) :: more, (cut newline first).2) := by
              simp only [cut, lines]
              rw [if_neg ends]
            rw [begins]
            simp only [cons_append, cut, ih, lines]
            rw [if_neg ends]

/-- Lines put together are cut where they were put together. -/
theorem cut_flatten {lines : List (List α)} (proper : ∀ line ∈ lines, newline ∉ line) :
    cut newline (lines.map (· ++ [newline])).flatten = (lines, []) := by
  induction lines with
  | nil => rfl
  | cons line lines ih =>
      obtain ⟨here, later⟩ := forall_mem_cons.1 proper
      rw [map_cons, flatten_cons, append_assoc, singleton_append, cut_line here, ih later]

variable (newline) in
/-- The lines and the rest, put together again, are the text. -/
theorem flatten_cut (text : List α) :
    ((cut newline text).1.map (· ++ [newline])).flatten ++ (cut newline text).2 = text := by
  induction text with
  | nil => rfl
  | cons a rest ih =>
      by_cases ends : a = newline
      · subst ends
        rw [cut_cons_newline]
        simp only [map_cons, flatten_cons, nil_append, cons_append, ih]
      · simp only [cut]
        rw [if_neg ends]
        cases lines : (cut newline rest).1 with
        | nil =>
            rw [lines] at ih
            simpa using ih
        | cons line more =>
            rw [lines] at ih
            simpa using ih

variable (newline) in
/-- No line has a newline in it, nor has the rest. -/
theorem not_mem_cut (text : List α) :
    (∀ line ∈ (cut newline text).1, newline ∉ line) ∧ newline ∉ (cut newline text).2 := by
  induction text with
  | nil => simp
  | cons a rest ih =>
      by_cases ends : a = newline
      · subst ends
        rw [cut_cons_newline]
        exact ⟨forall_mem_cons.2 ⟨not_mem_nil, ih.1⟩, ih.2⟩
      · have differ : newline ≠ a := Ne.symm ends
        simp only [cut]
        rw [if_neg ends]
        cases lines : (cut newline rest).1 with
        | nil => exact ⟨fun _ member => absurd member not_mem_nil, by simpa [differ] using ih.2⟩
        | cons line more =>
            rw [lines] at ih
            obtain ⟨here, later⟩ := forall_mem_cons.1 ih.1
            exact ⟨forall_mem_cons.2 ⟨by simpa [differ] using here, later⟩, ih.2⟩

/-- A complete line has only characters of the text. -/
theorem mem_of_mem_cut {text line : List α} (member : line ∈ (cut newline text).1) {a : α}
    (within : a ∈ line) : a ∈ text := by
  rw [← flatten_cut newline text]
  apply mem_append_left
  apply mem_flatten_of_mem (mem_map_of_mem member)
  exact mem_append_left _ within

/-- A complete line is shorter than the text. -/
theorem length_lt_of_mem_cut {text line : List α} (member : line ∈ (cut newline text).1) :
    line.length + (cut newline text).2.length < text.length := by
  have lengths := congrArg List.length (flatten_cut newline text)
  have inside : line ++ [newline] ∈ (cut newline text).1.map (· ++ [newline]) := mem_map_of_mem member
  have here := (sublist_flatten_of_mem inside).length_le
  simp only [length_append, length_singleton] at lengths here
  omega

/-! ### An unbounded buffer -/

section

variable (newline) (step : σ → List α → σ)

/-- Apply the step to the lines that end in a chunk; keep the rest for the next one. -/
def pour (state : σ × List α) (chunk : List α) : σ × List α :=
  let available := cut newline (state.2 ++ chunk)
  (available.1.foldl step state.1, available.2)

/-- However a text is split, the step is applied to its lines from left to right. -/
theorem pour_eq (chunks : List (List α)) (s : σ) {pending : List α} (unfinished : newline ∉ pending) :
    chunks.foldl (pour newline step) (s, pending) =
      ((cut newline (pending ++ chunks.flatten)).1.foldl step s,
      (cut newline (pending ++ chunks.flatten)).2) := by
  induction chunks generalizing s pending with
  | nil => simp [cut_of_not_mem unfinished]
  | cons chunk chunks ih =>
      rw [foldl_cons, pour, ih _ (not_mem_cut newline _).2, flatten_cons, ← append_assoc pending,
        cut_append (pending ++ chunk), foldl_append]

end

end LineStream

/-! ### A buffer of fixed size -/

/-- A reader that refills a buffer: its size, what a line does to the state, and what throwing away a full
buffer does. One byte is kept for a terminator. -/
structure Refill (α σ : Type*) where
  newline : α
  size : Nat
  step : σ → List α → σ
  reset : σ → σ

namespace Refill

open LineStream List

variable {α σ : Type*} (reader : Refill α σ)

/-- How many full buffers a line loses. -/
def losses (line : List α) : Nat := line.length / (reader.size - 1)

/-- What is left of a line after the full buffers at its front. -/
def fragment (line : List α) : List α := line.drop (reader.losses line * (reader.size - 1))

/-- What a line does, whatever its length. -/
def feed (s : σ) (line : List α) : σ :=
  reader.step (reader.reset^[reader.losses line] s) (reader.fragment line)

variable {reader} {line : List α}

section

variable (short : line.length < reader.size - 1)
include short

theorem losses_of_short : reader.losses line = 0 := Nat.div_eq_of_lt short

theorem fragment_of_short : reader.fragment line = line := by
  rw [fragment, losses_of_short short, Nat.zero_mul, drop_zero]

theorem feed_of_short (s : σ) : reader.feed s line = reader.step s line := by
  rw [feed, losses_of_short short, fragment_of_short short, Function.iterate_zero_apply]

end

theorem foldl_feed_of_short {lines : List (List α)} (short : ∀ line ∈ lines, line.length < reader.size - 1)
    (s : σ) : lines.foldl reader.feed s = lines.foldl reader.step s := by
  induction lines generalizing s with
  | nil => rfl
  | cons line lines ih =>
      obtain ⟨here, later⟩ := forall_mem_cons.1 short
      rw [foldl_cons, foldl_cons, feed_of_short here, ih later]

section

variable {full : List α} (roomy : 1 < reader.size) (fills : full.length = reader.size - 1)
include roomy fills

theorem losses_append (rest : List α) : reader.losses (full ++ rest) = reader.losses rest + 1 := by
  unfold losses
  rw [length_append, fills, Nat.add_comm, Nat.add_div_right _ (by omega)]

theorem fragment_append (rest : List α) : reader.fragment (full ++ rest) = reader.fragment rest := by
  unfold fragment
  rw [losses_append roomy fills, Nat.succ_mul, Nat.add_comm, ← fills, drop_append,
    drop_eq_nil_of_le (by omega), nil_append, Nat.add_sub_cancel_left]

theorem feed_append (s : σ) (rest : List α) :
    reader.feed s (full ++ rest) = reader.feed (reader.reset s) rest := by
  rw [feed, feed, fragment_append roomy fills, losses_append roomy fills, Function.iterate_succ_apply]

end

/-! ### Every way of splitting the reads -/

variable [DecidableEq α]

variable (reader) in
/-- The loop: read, apply the step to the complete lines, keep the rest, end when a read returns nothing.
`choices` says how many bytes a read returns; `none` when `fuel` reads do not do. -/
def readLoop : Nat → List Nat → σ → List α → List α → Option (σ × List α)
  | 0, _, _, _, _ => none
  | fuel + 1, choices, s, held, rest =>
      let request := reader.size - held.length - 1
      let got := min (max 1 (choices.headD 1)) (min request rest.length)
      if got = 0 then some (s, rest)
      else
        let available := cut reader.newline (held ++ rest.take got)
        let s := available.1.foldl reader.step s
        if available.2.length ≥ reader.size - 1 then
          readLoop fuel choices.tail (reader.reset s) [] (rest.drop got)
        else readLoop fuel choices.tail s available.2 (rest.drop got)

variable (reader) in
/-- What a text does. -/
def meaning (s : σ) (text : List α) : σ :=
  reader.reset^[reader.losses (cut reader.newline text).2] ((cut reader.newline text).1.foldl reader.feed s)

/-- A full buffer without a newline is thrown away, and the line goes on as if it began there. -/
theorem meaning_append {full : List α} (roomy : 1 < reader.size) (fills : full.length = reader.size - 1)
    (unfinished : reader.newline ∉ full) (s : σ) (rest : List α) :
    reader.meaning s (full ++ rest) = reader.meaning (reader.reset s) rest := by
  unfold meaning
  cases lines : (cut reader.newline rest).1 with
  | nil =>
      have noLine : reader.newline ∉ rest := by
        have whole := flatten_cut reader.newline rest
        rw [lines] at whole
        rw [← whole]
        exact (not_mem_cut reader.newline rest).2
      have nowhere : reader.newline ∉ full ++ rest := by
        rw [mem_append, not_or]
        exact ⟨unfinished, noLine⟩
      rw [cut_of_not_mem nowhere, cut_of_not_mem noLine, losses_append roomy fills]
      exact Function.iterate_succ_apply ..
  | cons line more =>
      rw [cut_append_of_line unfinished lines, foldl_cons, foldl_cons, feed_append roomy fills]

/-- One refill: the lines that end in the buffer are taken, and the rest of the text means what it meant. -/
theorem meaning_refill {available : List α} (fits : available.length ≤ reader.size - 1) (s : σ)
    (rest : List α) :
    reader.meaning s (available ++ rest) =
      reader.meaning ((cut reader.newline available).1.foldl reader.step s)
        ((cut reader.newline available).2 ++ rest) := by
  have short : ∀ line ∈ (cut reader.newline available).1, line.length < reader.size - 1 := by
    intro line member
    have shorter := length_lt_of_mem_cut member
    omega
  unfold meaning
  rw [cut_append, foldl_append, foldl_feed_of_short short]

/-- Every way of splitting the reads gives the meaning of the text, reads all of it, and never asks for
nothing. -/
theorem readLoop_eq (roomy : 1 < reader.size) {fuel : Nat} {rest : List α} (enough : rest.length < fuel)
    (choices : List Nat) (s : σ) {held : List α} (unfinished : reader.newline ∉ held)
    (short : held.length < reader.size - 1) :
    reader.readLoop fuel choices s held rest = some (reader.meaning s (held ++ rest), []) := by
  induction fuel generalizing choices s held rest with
  | zero => exact absurd enough (Nat.not_lt_zero _)
  | succ fuel ih =>
      simp only [readLoop]
      generalize chosen : max 1 (choices.headD 1) = wanted
      have positive : 1 ≤ wanted := chosen ▸ Nat.le_max_left ..
      cases rest with
      | nil =>
          rw [if_pos (by simp), append_nil, meaning, cut_of_not_mem unfinished, losses_of_short short]
          rfl
      | cons a rest =>
          generalize amount : min wanted (min (reader.size - held.length - 1) (a :: rest).length) = got
          rw [length_cons] at amount enough
          have left : ((a :: rest).drop got).length < fuel := by
            rw [length_drop, length_cons]
            omega
          have fits : (held ++ (a :: rest).take got).length ≤ reader.size - 1 := by
            rw [length_append, length_take]
            omega
          have whole : held ++ a :: rest = held ++ (a :: rest).take got ++ (a :: rest).drop got := by
            rw [append_assoc, take_append_drop]
          rw [if_neg (by omega), whole, meaning_refill fits]
          generalize held ++ (a :: rest).take got = available at fits
          have unfinished' := (not_mem_cut reader.newline available).2
          split
          · next full =>
              have shorter : (cut reader.newline available).2.length ≤ available.length := by
                have lengths := congrArg List.length (flatten_cut reader.newline available)
                rw [length_append] at lengths
                omega
              rw [meaning_append roomy (by omega) unfinished']
              exact ih left _ _ not_mem_nil (by rw [length_nil]; omega)
          · next notFull => exact ih left _ _ unfinished' (Nat.lt_of_not_le notFull)

/-- What a file shows, where throwing away a buffer does not show. -/
theorem readLoop_view {ρ : Type*} {view : σ → ρ} (hidden : ∀ s, view (reader.reset s) = view s)
    (roomy : 1 < reader.size) {fuel : Nat} {content : List α} (enough : content.length < fuel)
    (choices : List Nat) (s : σ) :
    (reader.readLoop fuel choices s [] content).map (fun ended => view ended.1) =
      some (view ((cut reader.newline content).1.foldl reader.feed s)) := by
  have still : ∀ n s, view (reader.reset^[n] s) = view s := by
    intro n
    induction n with
    | zero => exact fun _ => rfl
    | succ n ih => exact fun s => (ih (reader.reset s)).trans (hidden s)
  rw [readLoop_eq roomy enough choices s not_mem_nil (by rw [length_nil]; omega), Option.map_some,
    nil_append, meaning, still]

/-! ### Dropping lines that do not fit -/

omit [DecidableEq α]

variable (reader) in
/-- What a line would do if one that does not fit were dropped as a whole. -/
def dropLong (s : σ) (line : List α) : σ :=
  if line.length < reader.size - 1 then reader.step s line else reader.reset s

/-- A line that does not fit loses a full buffer at least. -/
theorem losses_pos (roomy : 1 < reader.size) (long : ¬ line.length < reader.size - 1) :
    0 < reader.losses line :=
  Nat.div_pos (Nat.le_of_not_lt long) (by omega)

theorem feed_of_long (idempotent : ∀ s, reader.reset (reader.reset s) = reader.reset s)
    (roomy : 1 < reader.size) (long : ¬ line.length < reader.size - 1) (s : σ) :
    reader.feed s line = reader.step (reader.reset s) (reader.fragment line) := by
  have once : ∀ n, reader.reset^[n + 1] s = reader.reset s := by
    intro n
    induction n with
    | zero => rfl
    | succ n ih => rw [Function.iterate_succ_apply', ih, idempotent]
  obtain ⟨n, some_⟩ := Nat.exists_eq_add_of_lt (losses_pos roomy long)
  rw [feed, some_, Nat.zero_add, once]

/-- If what is left of the lines that do not fit has no effect that shows, they are as good as dropped. -/
theorem foldl_feed_same (same : σ → σ → Prop)
    (idempotent : ∀ s, reader.reset (reader.reset s) = reader.reset s) (roomy : 1 < reader.size)
    (trans : ∀ {a b c}, same a b → same b c → same a c)
    (step_same : ∀ {s s'} line, same s s' → same (reader.step s line) (reader.step s' line))
    (reset_same : ∀ {s s'}, same s s' → same (reader.reset s) (reader.reset s')) {lines : List (List α)}
    (inert : ∀ line ∈ lines, ¬ line.length < reader.size - 1 →
      ∀ s, same (reader.step (reader.reset s) (reader.fragment line)) (reader.reset s)) {s s' : σ}
    (start : same s s') : same (lines.foldl reader.feed s) (lines.foldl reader.dropLong s') := by
  induction lines generalizing s s' with
  | nil => exact start
  | cons line lines ih =>
      obtain ⟨here, later⟩ := forall_mem_cons.1 inert
      rw [foldl_cons, foldl_cons]
      apply ih later
      by_cases short : line.length < reader.size - 1
      · rw [feed_of_short short, dropLong, if_pos short]
        exact step_same line start
      · rw [feed_of_long idempotent roomy short, dropLong, if_neg short]
        exact trans (here short s) (reset_same start)

end Refill
