/-
Module: MallocHook.Proofs.FrameExclusion
Purpose: When the frame chosen for an allocation is not an excluded one. The pass over the stack is
  three searches, of which only the second looks at the excluded paths.
Trusted boundary: Excluded, KeepsOff
Main exports: selectLoop_eq, select_workspace_frame_iff
-/
import MallocHook.Core.WorkspaceFrame

namespace MallocHook

open PosixPath Option

/-! ### First and last matches -/

section

variable {α : Type*} {p : α → Bool} {bad : α → Prop} {l : List α}

/-- The first match is not a bad one exactly if every bad match has one before it. -/
theorem not_found_first : (∀ x ∈ l.find? p, ¬ bad x) ↔
    ∀ before x behind, l = before ++ x :: behind → bad x → p x → ∃ y ∈ before, p y := by
  constructor
  · intro kept before x behind split isBad passes
    by_contra alone
    refine kept x (List.find?_eq_some_iff_append.2 ⟨passes, before, behind, split, ?_⟩) isBad
    simpa using alone
  · intro each x found isBad
    obtain ⟨passes, before, behind, split, passed⟩ := List.find?_eq_some_iff_append.1 found
    obtain ⟨y, there, matched⟩ := each before x behind split isBad passes
    have := passed y there
    simp [matched] at this

/-- The last match is not a bad one exactly if every bad match has one behind it. -/
theorem not_found_last : (∀ x ∈ l.reverse.find? p, ¬ bad x) ↔
    ∀ before x behind, l = before ++ x :: behind → bad x → p x → ∃ y ∈ behind, p y := by
  rw [not_found_first]
  constructor
  · intro each before x behind split isBad passes
    simpa using each behind.reverse x before.reverse (by simp [split]) isBad passes
  · intro each before x behind split isBad passes
    have split' : l = behind.reverse ++ x :: before.reverse := by simpa using congrArg List.reverse split
    simpa using each _ x _ split' isBad passes

end

/-! ### The three searches -/

section

variable (cwd : Path) (rules : FrameRules) (frames : List StackFrame)

/-- The first frame below a workspace directory. -/
def firstWorkspaceFrame : Option StackFrame := frames.find? fun frame => rules.selects (frame.absFile cwd)

/-- The last frame of the toolkit that is kept. -/
def lastToolkitFrame : Option StackFrame :=
  frames.reverse.find? fun frame => rules.backsUp (frame.absFile cwd)

/-- The first frame with a file outside the C library. -/
def firstNamedFrame : Option StackFrame := frames.find? fun frame => lastResort (frame.absFile cwd)

theorem selectLoop_eq (backup : Option StackFrame) :
    selectLoop cwd rules frames backup =
      (firstWorkspaceFrame cwd rules frames).or
        ((lastToolkitFrame cwd rules frames).or (backup.or (firstNamedFrame cwd frames))) := by
  induction frames generalizing backup with
  | nil => simp [selectLoop, firstWorkspaceFrame, lastToolkitFrame, firstNamedFrame]
  | cons frame later ih =>
      simp only [selectLoop, ih]
      simp only [firstWorkspaceFrame, lastToolkitFrame, firstNamedFrame, List.find?_cons, List.reverse_cons,
        List.find?_append, List.find?_nil]
      cases rules.selects (frame.absFile cwd) with
      | true => simp
      | false =>
          -- a toolkit frame replaces the backup, and a last resort only fills the gap
          cases rules.backsUp (frame.absFile cwd) with
          | true => simp
          | false => cases backup <;> cases lastResort (frame.absFile cwd) <;> simp

end

/-! ### Every frame found has a file -/

section

variable {cwd workspaceRoot absFile : Path} {project : ProjectConfig}

theorem StackFrame.absFile_eq_nil {frame : StackFrame} : frame.absFile cwd = [] ↔ frame.file = [] := by
  unfold StackFrame.absFile
  split
  · simp_all
  · simp_all [abspath_ne_nil]

theorem ne_nil_of_selects (selected : (FrameRules.ofProject cwd workspaceRoot project).selects absFile) :
    absFile ≠ [] := by
  rintro rfl
  simp [FrameRules.selects, startsWithAny, FrameRules.ofProject] at selected

theorem ne_nil_of_backsUp (kept : (FrameRules.ofProject cwd workspaceRoot project).backsUp absFile) :
    absFile ≠ [] := by
  rintro rfl
  simp only [FrameRules.backsUp, FrameRules.ofProject, Bool.and_eq_true] at kept
  obtain ⟨inToolkit, -⟩ := kept
  split at inToolkit <;> simp at inToolkit

theorem ne_nil_of_lastResort (named : lastResort absFile) : absFile ≠ [] := by
  simp only [lastResort, Bool.and_eq_true, bne_iff_ne] at named
  exact named.1

end

section

variable (cwd : Path) (frames : List StackFrame) (workspaceRoot : Path) (project : Option ProjectConfig)

/-- The rules of the project given, or of the default one. -/
abbrev projectRules : FrameRules := .ofProject cwd workspaceRoot (project.getD defaultProjectConfig)

/-- The frame's file is at or under one of the excluded paths. -/
def Excluded (frame : StackFrame) : Prop :=
  ∃ rel ∈ (project.getD defaultProjectConfig).excludedFrameRelpaths,
    Under (inRoot cwd workspaceRoot rel) (frame.absFile cwd)

instance : DecidablePred (Excluded cwd workspaceRoot project) := fun _ =>
    inferInstanceAs (Decidable (∃ _ ∈ _, _))

/-- The frame chosen has a file and is not excluded, and is the first workspace frame that is not
excluded, if there is one. -/
def KeepsOff (chosen : Option StackFrame) : Prop :=
  (∀ frame ∈ chosen, frame.file ≠ [] ∧ ¬ Excluded cwd workspaceRoot project frame) ∧
    ∀ frame ∈ frames.find? fun frame =>
      (projectRules cwd workspaceRoot project).selects (frame.absFile cwd) ∧
        ¬ Excluded cwd workspaceRoot project frame,
      chosen = some frame

variable {cwd frames workspaceRoot project}

theorem selectWorkspaceFrame_eq :
    selectWorkspaceFrame cwd frames workspaceRoot project =
      (firstWorkspaceFrame cwd (projectRules cwd workspaceRoot project) frames).or
        ((lastToolkitFrame cwd (projectRules cwd workspaceRoot project) frames).or
        (firstNamedFrame cwd frames)) := by
  rw [selectWorkspaceFrame, selectLoop_eq, none_or]

theorem file_ne_nil_of_selected {frame : StackFrame}
    (selected : selectWorkspaceFrame cwd frames workspaceRoot project = some frame) : frame.file ≠ [] := by
  rw [selectWorkspaceFrame_eq, or_eq_some_iff, or_eq_some_iff] at selected
  rw [Ne, ← StackFrame.absFile_eq_nil]
  rcases selected with found | ⟨-, found | ⟨-, found⟩⟩
  · have selected := List.find?_some found
    exact ne_nil_of_selects selected
  · have kept := List.find?_some found
    exact ne_nil_of_backsUp kept
  · have named := List.find?_some found
    exact ne_nil_of_lastResort named

/-- A first workspace frame that is not excluded is the first one of those. -/
theorem firstWorkspaceFrame_of_kept
    (kept : ∀ frame ∈ firstWorkspaceFrame cwd (projectRules cwd workspaceRoot project) frames,
      ¬ Excluded cwd workspaceRoot project frame) :
    (frames.find? fun frame => (projectRules cwd workspaceRoot project).selects (frame.absFile cwd) ∧
        ¬ Excluded cwd workspaceRoot project frame) =
      firstWorkspaceFrame cwd (projectRules cwd workspaceRoot project) frames := by
  cases found : firstWorkspaceFrame cwd (projectRules cwd workspaceRoot project) frames with
  | none =>
      rw [List.find?_eq_none]
      intro frame member both
      exact List.find?_eq_none.1 found frame member (of_decide_eq_true both).1
  | some frame =>
      have notExcluded := kept frame found
      obtain ⟨selected, before, behind, split, passed⟩ := List.find?_eq_some_iff_append.1 found
      refine List.find?_eq_some_iff_append.2 ⟨decide_eq_true ⟨selected, notExcluded⟩, before,
        behind, split, ?_⟩
      intro earlier member
      have := passed earlier member
      simp_all

theorem selectWorkspaceFrame_of_workspace {frame : StackFrame}
    (found : firstWorkspaceFrame cwd (projectRules cwd workspaceRoot project) frames = some frame) :
    selectWorkspaceFrame cwd frames workspaceRoot project = some frame := by
  rw [selectWorkspaceFrame_eq, found, some_or]

/-- It is enough that the frame chosen is not excluded: a first workspace frame is chosen in any case. -/
theorem keepsOff_iff_not_excluded :
    KeepsOff cwd frames workspaceRoot project (selectWorkspaceFrame cwd frames workspaceRoot project) ↔
      ∀ frame ∈ selectWorkspaceFrame cwd frames workspaceRoot project,
      ¬ Excluded cwd workspaceRoot project frame := by
  constructor
  · intro keepsOff frame chosen
    exact (keepsOff.1 frame chosen).2
  · intro kept
    refine ⟨fun frame chosen => ⟨file_ne_nil_of_selected chosen, kept frame chosen⟩, ?_⟩
    have workspaceKept : ∀ frame ∈ firstWorkspaceFrame cwd (projectRules cwd workspaceRoot project) frames,
        ¬ Excluded cwd workspaceRoot project frame :=
      fun frame found => kept frame (selectWorkspaceFrame_of_workspace found)
    rw [firstWorkspaceFrame_of_kept workspaceKept]
    exact fun frame found => selectWorkspaceFrame_of_workspace found

/-- The choice keeps off the excluded paths exactly if the frame that the first search with a result finds
does. -/
theorem keepsOff_iff_searches :
    KeepsOff cwd frames workspaceRoot project (selectWorkspaceFrame cwd frames workspaceRoot project) ↔
      (∀ frame ∈ firstWorkspaceFrame cwd (projectRules cwd workspaceRoot project) frames,
        ¬ Excluded cwd workspaceRoot project frame) ∧
      (firstWorkspaceFrame cwd (projectRules cwd workspaceRoot project) frames = none →
        (∀ frame ∈ lastToolkitFrame cwd (projectRules cwd workspaceRoot project) frames,
          ¬ Excluded cwd workspaceRoot project frame) ∧
        (lastToolkitFrame cwd (projectRules cwd workspaceRoot project) frames = none →
          ∀ frame ∈ firstNamedFrame cwd frames, ¬ Excluded cwd workspaceRoot project frame)) := by
  rw [keepsOff_iff_not_excluded, selectWorkspaceFrame_eq]
  cases firstWorkspaceFrame cwd (projectRules cwd workspaceRoot project) frames with
  | some frame => simp
  | none => cases lastToolkitFrame cwd (projectRules cwd workspaceRoot project) frames <;> simp

/-- The choice keeps off the excluded paths exactly if every excluded workspace frame has a workspace
frame before it; if, without any, every excluded toolkit frame that passes the test of the loop has a
later one; and if, without either, every excluded frame outside the C library has one before it. -/
theorem select_workspace_frame_iff (cwd : Path) (frames : List StackFrame) (workspaceRoot : Path)
    (project : Option ProjectConfig) :
    let workspace (frame : StackFrame) : Bool :=
    (projectRules cwd workspaceRoot project).selects (frame.absFile cwd)
    let toolkit (frame : StackFrame) : Bool := (projectRules cwd workspaceRoot project).backsUp
      (frame.absFile cwd)
    let named (frame : StackFrame) : Bool := lastResort (frame.absFile cwd)
    KeepsOff cwd frames workspaceRoot project (selectWorkspaceFrame cwd frames workspaceRoot project) ↔
      ∀ before frame behind, frames = before ++ frame :: behind → Excluded cwd workspaceRoot project frame →
        (workspace frame → ∃ earlier ∈ before, workspace earlier) ∧
        ((∀ other ∈ frames, ¬ workspace other) →
          (toolkit frame → ∃ later ∈ behind, toolkit later) ∧
          ((∀ other ∈ frames, ¬ toolkit other) → named frame → ∃ earlier ∈ before, named earlier)) := by
  intro workspace toolkit named
  have noWorkspace : firstWorkspaceFrame cwd (projectRules cwd workspaceRoot project) frames = none ↔
      ∀ other ∈ frames, ¬ workspace other := List.find?_eq_none
  have noToolkit : lastToolkitFrame cwd (projectRules cwd workspaceRoot project) frames = none ↔
      ∀ other ∈ frames, ¬ toolkit other := by
    simp [lastToolkitFrame, toolkit]
  rw [keepsOff_iff_searches, noWorkspace, noToolkit, firstWorkspaceFrame, lastToolkitFrame, firstNamedFrame,
    not_found_first, not_found_last, not_found_first]
  constructor
  · rintro ⟨workspaceKept, otherKept⟩ before frame behind split excluded
    refine ⟨workspaceKept before frame behind split excluded, fun noWorkspace => ?_⟩
    obtain ⟨toolkitKept, namedKept⟩ := otherKept noWorkspace
    exact ⟨toolkitKept before frame behind split excluded,
      fun noToolkit => namedKept noToolkit before frame behind split excluded⟩
  · intro each
    refine ⟨fun before frame behind split excluded => (each before frame behind split excluded).1, ?_⟩
    intro noWorkspace
    refine ⟨fun before frame behind split excluded =>
      ((each before frame behind split excluded).2 noWorkspace).1, ?_⟩
    intro noToolkit before frame behind split excluded
    exact ((each before frame behind split excluded).2 noWorkspace).2 noToolkit

end

/-- A frame of a file. -/
def frameOf (index : Nat) (file : String) : StackFrame :=
  { index, function := [], file := file.toList, line := none }

/-- The default project with paths excluded. -/
def excluding (rels : List String) : ProjectConfig :=
  { defaultProjectConfig with excludedFrameRelpaths := rels.map String.toList }

/-- Each of the three searches can find an excluded frame: a workspace frame before one that is not
excluded, a toolkit frame of a file excluded by a name without one of the four extensions, and any other
frame. -/
theorem select_workspace_frame_excluded :
    (let project := some (excluding ["src/alloc"])
      let frames := [frameOf 0 "/w/src/alloc/pool.cpp", frameOf 1 "/w/src/net/run.cpp"]
      selectWorkspaceFrame "/".toList frames "/w".toList project = some (frameOf 0 "/w/src/alloc/pool.cpp") ∧
        Excluded "/".toList "/w".toList project (frameOf 0 "/w/src/alloc/pool.cpp") ∧
        ¬ Excluded "/".toList "/w".toList project (frameOf 1 "/w/src/net/run.cpp") ∧
        ¬ KeepsOff "/".toList frames "/w".toList project
          (selectWorkspaceFrame "/".toList frames "/w".toList project)) ∧
    (let project := some (excluding ["dev_toolkit/alloc.c"])
      let frames := [frameOf 0 "/w/dev_toolkit/alloc.c"]
      ¬ KeepsOff "/".toList frames "/w".toList project
        (selectWorkspaceFrame "/".toList frames "/w".toList project)) ∧
    (let project := some (excluding ["third_party/alloc"])
      let frames := [frameOf 0 "/w/third_party/alloc/pool.cpp"]
      ¬ KeepsOff "/".toList frames "/w".toList project
        (selectWorkspaceFrame "/".toList frames "/w".toList project)) := by
  simp only [keepsOff_iff_not_excluded]
  decide +kernel

end MallocHook
