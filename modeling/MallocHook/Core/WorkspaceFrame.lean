/-
Module: MallocHook.Core.WorkspaceFrame
Purpose: Which frame of a symbolised stack stands for the allocation: the first one of the workspace,
  with a backup.
Trusted boundary: translation of DEFAULT_PROJECT_CONFIG and select_workspace_frame of
  scripts/process_memory_stack.py
Main exports: StackFrame, ProjectConfig, defaultProjectConfig
-/
import MallocHook.Lib.PosixPath

namespace MallocHook

open PosixPath

/-- A frame as `build_frames_from_symbolized` makes it. The file is empty if it is not known. -/
structure StackFrame where
  index : Nat
  function : List Char
  file : Path
  line : Option Nat
deriving DecidableEq, Repr

/-- What `select_workspace_frame` reads of the project, with the values it takes for a missing key. -/
structure ProjectConfig where
  workspaceSubdirs : List Path := []
  devToolkitSubdir : Option Path := none
  excludedFrameRelpaths : List Path := []
deriving DecidableEq, Repr

/-- `DEFAULT_PROJECT_CONFIG`. -/
def defaultProjectConfig : ProjectConfig where
  workspaceSubdirs := ["src".toList, "modules".toList]
  devToolkitSubdir := some "dev_toolkit".toList
  excludedFrameRelpaths := []

/-- `os.path.abspath(os.path.join(workspace_root, rel))`. -/
def inRoot (cwd workspaceRoot rel : Path) : Path := abspath cwd (join workspaceRoot rel)

/-- The names that are excluded as a file and not as a directory. -/
def sourceExtensions : List Path := [".cpp".toList, ".hpp".toList, ".h".toList, ".cc".toList]

/-- `rel.endswith((".cpp", ".hpp", ".h", ".cc"))`. -/
def namesSource (rel : Path) : Bool := sourceExtensions.any (·.isSuffixOf rel)

/-- `any(abs_file.startswith(prefix) for prefix in prefixes)`. -/
def startsWithAny (prefixes : List Path) (absFile : Path) : Bool := prefixes.any (·.isPrefixOf absFile)

/-- What `select_workspace_frame` computes before its loop. -/
structure FrameRules where
  workspacePrefixes : List Path
  devToolkitPrefix : Option Path
  excludedBackupPrefixes : List Path

namespace FrameRules

def ofProject (cwd workspaceRoot : Path) (project : ProjectConfig) : FrameRules :=
  let devSub := project.devToolkitSubdir.getD []
  { workspacePrefixes := project.workspaceSubdirs.map fun sub => inRoot cwd workspaceRoot sub ++ ['/']
    devToolkitPrefix := if devSub = [] then none else some (inRoot cwd workspaceRoot devSub ++ ['/'])
    excludedBackupPrefixes := project.excludedFrameRelpaths.map fun rel =>
      inRoot cwd workspaceRoot rel ++ if namesSource rel then [] else ['/'] }

variable (rules : FrameRules) (absFile : Path)

/-- The frame is selected at once. -/
def selects : Bool := startsWithAny rules.workspacePrefixes absFile

/-- The frame takes the place of any backup. -/
def backsUp : Bool :=
  rules.devToolkitPrefix.any (·.isPrefixOf absFile) && !startsWithAny rules.excludedBackupPrefixes absFile

end FrameRules

/-- The frame is taken if there is no backup yet. -/
def lastResort (absFile : Path) : Bool := absFile != [] && !decide ("/bionic/".toList <:+: absFile)

/-- `os.path.abspath(frame["file"]) if frame["file"] else ""`. -/
def StackFrame.absFile (cwd : Path) (frame : StackFrame) : Path :=
  if frame.file = [] then [] else abspath cwd frame.file

/-- The loop, with the backup so far. -/
def selectLoop (cwd : Path) (rules : FrameRules) : List StackFrame → Option StackFrame → Option StackFrame
  | [], backup => backup
  | frame :: later, backup =>
      let absFile := frame.absFile cwd
      if rules.selects absFile then some frame
      else
        let backup := if rules.backsUp absFile then some frame else backup
        let backup := if backup.isNone && lastResort absFile then some frame else backup
        selectLoop cwd rules later backup

/-- `select_workspace_frame`. No project, or an empty one, is the default project. -/
def selectWorkspaceFrame (cwd : Path) (frames : List StackFrame) (workspaceRoot : Path)
    (project : Option ProjectConfig) : Option StackFrame :=
  selectLoop cwd (.ofProject cwd workspaceRoot (project.getD defaultProjectConfig)) frames none

end MallocHook
