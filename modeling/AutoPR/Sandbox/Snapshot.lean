import Mathlib.Algebra.BigOperators.Group.List.Basic
import Mathlib.Algebra.Order.BigOperators.Group.List
import Mathlib.Algebra.Ring.Int.Defs
import AutoPR.Library.Posix

/-! The snapshot of a repository, read from a tar archive under three caps: on the size of a
file, on the number of files and on their total size. The caps go by the sizes that the headers
state, and the total is checked before a member is looked at any further. -/
namespace AutoPR.Sandbox
open Posix

structure TarMember where
  name : Text
  isfile : Bool
  /-- As its header states it, which may be a negative number. -/
  size : Int
  /-- What reading gives; it raises where the archive is cut off. -/
  content : Option ByteArray
  whole : ∀ data, content = some data → data.size = size.toNat

structure Archive where
  members : List TarMember
  /-- The end of the archive can be read. -/
  sound : Bool

/-- `Settings.snapshot_max_*`. -/
structure Caps where
  maxFileBytes : Int
  maxFiles : Int
  maxTotalBytes : Option Int

/-- `max_total_bytes is not None and total > max_total_bytes`. -/
def Caps.exceeds (caps : Caps) (total : Int) : Bool := caps.maxTotalBytes.any (· < total)

def stripTop (name : Text) : Text :=
  if slash ∈ name then (name.dropWhile (· ≠ slash)).tail else name

def isSafeRel (rel : Text) : Bool := rel ≠ [] && !isAbsolute rel && [dot, dot] ∉ rel.splitOn slash

/-- The loop over the members; none where reading raises. A regular member has a file object. -/
def extractRepoTarballFrom (caps : Caps) (sound : Bool) (out : List (Text × String)) (total : Int) :
    List TarMember → Option (List (Text × String))
  | [] => if sound then some out else none
  | member :: rest =>
      if !member.isfile || caps.maxFileBytes < member.size then
        extractRepoTarballFrom caps sound out total rest
      else if caps.exceeds (total + member.size) then some out
      else if !isSafeRel (stripTop member.name) then
        extractRepoTarballFrom caps sound out total rest
      else match member.content with
        | none => none
        | some data =>
            match String.fromUTF8? data with
            | none => extractRepoTarballFrom caps sound out total rest
            | some text =>
                let out := out ++ [(stripTop member.name, text)]
                if caps.maxFiles ≤ out.length then some out
                else extractRepoTarballFrom caps sound out (total + member.size) rest

def extractRepoTarball (caps : Caps) (archive : Archive) : Option (List (Text × String)) :=
  extractRepoTarballFrom caps archive.sound [] 0 archive.members

def TarMember.decoded? (member : TarMember) : Option (Text × String) :=
  if isSafeRel (stripTop member.name) then
    (member.content.bind String.fromUTF8?).map fun text => (stripTop member.name, text)
  else none

/-- The texts of the archive: of regular members whose content is small enough. -/
def TarMember.text? (caps : Caps) (member : TarMember) : Option (Text × String) :=
  if member.isfile && (member.size.toNat : Int) ≤ caps.maxFileBytes then member.decoded? else none

def texts (caps : Caps) (members : List TarMember) : List (Text × String) :=
  members.filterMap (TarMember.text? caps)

/-- The encoded size of all texts. -/
def encodedSize (files : List (Text × String)) : Nat := (files.map (·.2.utf8ByteSize)).sum

/-- The texts in their order, up to the number of files or just before the first one that would
push the total over its cap. -/
def takeWithin (caps : Caps) (files : List (Text × String)) :
    List (Text × String) → List (Text × String)
  | [] => files
  | next :: rest =>
      if caps.maxFiles ≤ files.length || caps.exceeds (encodedSize (files ++ [next])) then files
      else takeWithin caps (files ++ [next]) rest

def snapshotOf (caps : Caps) (archive : Archive) : List (Text × String) :=
  takeWithin caps [] (texts caps archive.members)

/-- The archive can be read, every member of it too. -/
def Archive.Intact (archive : Archive) : Prop :=
  archive.sound = true ∧ ∀ member ∈ archive.members, member.content.isSome = true

/-- A regular member whose stated size is small enough counts against the total. -/
def TarMember.isCounted (caps : Caps) (member : TarMember) : Bool :=
  member.isfile && member.size ≤ caps.maxFileBytes

abbrev Found := (Text × String) × Int

def TarMember.kept? (caps : Caps) (member : TarMember) : Option Found :=
  if member.isCounted caps then member.decoded?.map fun f => (f, member.size) else none

def kept (caps : Caps) (members : List TarMember) : List Found :=
  members.filterMap (TarMember.kept? caps)

def stated (found : List Found) : Int := (found.map (·.2)).sum

/-- The loop gets past these members: there is room for one file more, and none that counts
pushes the stated total over its cap. -/
def Caps.Reads (caps : Caps) (found : List Found) (before : List TarMember) : Prop :=
  ((found ++ kept caps before).length : Int) < caps.maxFiles ∧
    ∀ front member back, before = front ++ member :: back → member.isCounted caps = true →
      caps.exceeds (stated (found ++ kept caps front) + member.size) = false

/-- What holds of each member that the loop comes to, after the texts that it has kept. -/
def Throughout (caps : Caps) (found : List Found) (members : List TarMember)
    (P : List Found → TarMember → List TarMember → Prop) : Prop :=
  ∀ before member after, members = before ++ member :: after → caps.Reads found before →
    P (found ++ kept caps before) member after

/-- A member that is left out does not push the total over its cap, or the next text does so as
well, or there is none; and a text that pushes the total of the texts over its cap does not state
less. -/
def Undisturbed (caps : Caps) (found : List Found) (member : TarMember) (after : List TarMember) :
    Prop :=
  (member.isCounted caps = true → member.kept? caps = none →
    caps.exceeds (stated found + member.size) = true →
      ∀ next ∈ (texts caps after).head?,
        caps.exceeds (encodedSize (found.map (·.1) ++ [next])) = true) ∧
  ∀ next, member.kept? caps = some next →
    caps.exceeds (encodedSize (found.map (·.1) ++ [next.1])) = true →
      caps.exceeds (stated found + member.size) = true

/-- The first text, or a member left out before it, is over the cap on its own. -/
def NothingFits (caps : Caps) (members : List TarMember) : Prop :=
  ∀ before member after next, members = before ++ member :: after → kept caps before = [] →
    member.kept? caps = some next → caps.exceeds member.size = true ∨
      ∃ left ∈ before, left.isCounted caps = true ∧ caps.exceeds left.size = true

/-- Nothing that is left out ends the snapshot, and no text slips through; caps that admit no
file at all are respected only where no text fits. -/
def Caps.Serves (caps : Caps) (members : List TarMember) : Prop :=
  if 1 ≤ caps.maxFiles ∧ 0 ≤ caps.maxFileBytes then Throughout caps [] members (Undisturbed caps)
  else NothingFits caps members

end AutoPR.Sandbox
