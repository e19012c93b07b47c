import AutoPR.Library.FileTree
import AutoPR.Library.Posix

/-! The build context of the sandbox: the files of a snapshot written below `repo`, beside the
patch. A path is judged by its written form after resolution, so a directory whose name only
begins with `repo` passes as well; what else passes lies below `repo`. -/
namespace AutoPR.Sandbox
open Posix FileTree

inductive Failure where
  /-- `ValueError("unsafe path in snapshot: ...")`. -/
  | unsafePath (rel : Text)
  /-- The operating system does not take the path, for a NUL or a surrogate in it. -/
  | valueError
  | osError
deriving DecidableEq

def Failure.isValueError : Failure → Bool
  | .unsafePath _ | .valueError => true
  | .osError => false

/-- The file system the sandbox works in. -/
structure Host where
  links : Links
  /-- A new entry of this path can be made, for its length and the room there is. -/
  accepts : Path → Bool

abbrev Disk := Tree Name String

def repoName : Name := ⟨text "repo", by decide⟩
def patchName : Name := ⟨text "patch.diff", by decide⟩

/-- `repo_dir.resolve()`, for the resolved path of `root`. -/
def Host.repoDir (host : Host) (root : Path) : Path := host.links root repoName

def Host.writeFile (host : Host) (root : Path) (rel : Text) (content : String) (disk : Disk) :
    Disk × Except Failure Unit :=
  match resolve host.links (host.repoDir root) rel with
  | none => (disk, .error .valueError)
  | some dest =>
      if (render (host.repoDir root)).isPrefixOf (render dest) then
        match disk.save host.accepts dest content with
        | (after, true) => (after, .ok ())
        | (after, false) => (after, .error .osError)
      else (disk, .error (.unsafePath rel))

def Host.writeFiles (host : Host) (root : Path) :
    List (Text × String) → Disk → Disk × Except Failure Unit
  | [], disk => (disk, .ok ())
  | (rel, content) :: rest, disk =>
      match host.writeFile root rel content disk with
      | (after, .error failure) => (after, .error failure)
      | (after, .ok ()) => host.writeFiles root rest after

def withNewline (patch : String) : String :=
  if patch.toList.getLast? = some '\n' then patch else patch ++ "\n"

def Host.writeContext (host : Host) (root : Path) (files : List (Text × String)) (patch : String)
    (disk : Disk) : Disk × Except Failure Unit :=
  match disk.makeDirs host.accepts [] (root ++ [repoName]) with
  | (made, false) => (made, .error .osError)
  | (made, true) =>
      match host.writeFiles root files made with
      | (written, .error failure) => (written, .error failure)
      | (written, .ok ()) =>
          match written.write host.accepts (root ++ [patchName]) (withNewline patch) with
          | (after, true) => (after, .ok ())
          | (after, false) => (after, .error .osError)

/-- `run_verification` writes the context into a new directory. -/
def Host.freshContext (host : Host) (root : Path) (files : List (Text × String)) (patch : String) :
    Disk × Except Failure Unit :=
  host.writeContext root files patch (Tree.fresh root)

def Inside (root p : Path) : Prop := ∃ name rest, p = root ++ repoName :: name :: rest

/-- Below `root`, through an entry whose name begins with `repo`. -/
def Lookalike (root p : Path) : Prop :=
  ∃ name rest, p = root ++ name :: rest ∧ repoName.val <+: name.val

def Host.Escapes (host : Host) (root : Path) (rel : Text) : Prop :=
  ∃ dest, resolve host.links (host.repoDir root) rel = some dest ∧ ¬ Inside root dest

/-- All files stay below `root/repo`, and a path that leads elsewhere ends the call with a
ValueError, its file not written. -/
def Host.Contains (host : Host) (root : Path) (files : List (Text × String)) (patch : String) :
    Prop :=
  (∀ p, (host.freshContext root files patch).1.IsFile p → p = root ++ [patchName] ∨ Inside root p) ∧
  ((∃ f ∈ files, host.Escapes root f.1) →
    (∃ failure, (host.freshContext root files patch).2 = .error failure ∧
      failure.isValueError = true) ∧
    ∀ f ∈ files, ∀ dest, resolve host.links (host.repoDir root) f.1 = some dest →
      ¬ Inside root dest → ¬ (host.freshContext root files patch).1.IsFile dest)

/-- The path cannot be resolved, or leads to where even the name does not begin with `repo`. -/
def Host.Refused (host : Host) (root : Path) (rel : Text) : Prop :=
  ∀ dest, resolve host.links (host.repoDir root) rel = some dest → ¬ Lookalike root dest

/-- The files lead below `root/repo`, and there is room for one after the other. -/
def Host.HasRoom (host : Host) (root : Path) (files : List (Text × String)) : Prop :=
  ∃ dests : List Path,
    (files.map fun f => resolve host.links (host.repoDir root) f.1) = dests.map some ∧
    (∀ dest ∈ dests, Inside root dest) ∧ AllFit host.accepts (root ++ [repoName]) [] dests

/-- No path leads elsewhere; or the first thing that stops the loop is a path that is refused. -/
def Host.Guarded (host : Host) (root : Path) (files : List (Text × String)) : Prop :=
  (∀ f ∈ files, ¬ host.Escapes root f.1) ∨
  (host.accepts (root ++ [repoName]) = true ∧ ∃ before f after,
    files = before ++ f :: after ∧ host.HasRoom root before ∧ host.Refused root f.1)

end AutoPR.Sandbox
