import Mathlib.Data.List.Nodup
import AutoPR.Library.Python

/-! The `installations` table: one row a customer. A handler that raises keeps what
it has committed before. -/
namespace AutoPR.Tenancy
open Python

abbrev Time := Nat

structure Installation where
  installationId : Int
  accountLogin : String := ""
  accountType : String := ""
  accountId : Option Int := none
  targetType : String := ""
  repositorySelection : String := ""
  suspendedAt : Option Time := none
  deletedAt : Option Time := none
deriving DecidableEq

def Installation.isActive (row : Installation) : Bool :=
  row.deletedAt.isNone && row.suspendedAt.isNone

/-- The numbers that an INTEGER column takes, 32 bits wide unless the database is SQLite. -/
structure IntegerColumn where
  least : Int := -2147483648
  greatest : Int := 2147483647

def IntegerColumn.holds (c : IntegerColumn) (n : Int) : Bool := c.least ≤ n && n ≤ c.greatest

def IntegerColumn.sqlite : IntegerColumn := ⟨-9223372036854775808, 9223372036854775807⟩

/-- The table, with the unique constraint of its key and the width of its numbers. -/
structure Installations where
  integers : IntegerColumn
  rows : List Installation
  unique : (rows.map (·.installationId)).Nodup

namespace Installations

def empty (integers : IntegerColumn := {}) : Installations := ⟨integers, [], List.nodup_nil⟩

def insert (t : Installations) (row : Installation) : Option Installations :=
  if h : row.installationId ∈ t.rows.map (·.installationId) then none
  else some {
    integers := t.integers
    rows := t.rows ++ [row]
    unique := by
      rw [List.map_append]
      exact List.Nodup.append t.unique (List.nodup_singleton _) (List.disjoint_singleton.mpr h) }

def put (t : Installations) (row : Installation) : Installations where
  integers := t.integers
  rows := t.rows.map fun old => if old.installationId = row.installationId then row else old
  unique := by
    have hids : (t.rows.map fun old => if old.installationId = row.installationId then row else old).map
        (·.installationId) = t.rows.map (·.installationId) := by
      rw [List.map_map]
      apply List.map_congr_left
      intro old _
      simp only [Function.comp]
      split
      · rename_i h
        exact h.symm
      · rfl
    rw [hids]
    exact t.unique

def get (t : Installations) (installationId : Int) : Option Installation :=
  t.rows.find? (·.installationId = installationId)

def getActive (t : Installations) (installationId : Int) : Option Installation :=
  (t.get installationId).filter (·.isActive)

end Installations

def asInt (u : Unicode) : PyVal → Option Int
  | .int n => some n
  | .str s => parseInt u s
  | _ => none

structure InstallationFields where
  installationId : Option Int
  accountLogin : String
  accountType : String
  accountId : Option Int
  targetType : String
  repositorySelection : String

def installationFields (u : Unicode) (installation : PyVal) : Py InstallationFields := do
  let account := (← installation.get "account" .none).or (.dict [])
  return {
    installationId := asInt u (← installation.get "id" .none)
    accountLogin := ((← account.get "login" (.str "")).or (.str "")).toStr u
    accountType := ((← account.get "type" (.str "")).or (.str "")).toStr u
    accountId := asInt u (← account.get "id" .none)
    targetType := ((← installation.get "target_type" (.str "")).or (.str "")).toStr u
    repositorySelection :=
      ((← installation.get "repository_selection" (.str "")).or (.str "")).toStr u }

def InstallationFields.newRow (fields : InstallationFields) (installationId : Int) :
    Installation where
  installationId := installationId
  accountLogin := fields.accountLogin
  accountType := fields.accountType
  accountId := fields.accountId
  targetType := fields.targetType
  repositorySelection := fields.repositorySelection

def InstallationFields.refresh (fields : InstallationFields) (row : Installation) : Installation :=
  { row with
    accountLogin := fields.accountLogin
    accountType := fields.accountType
    accountId := fields.accountId
    targetType := fields.targetType
    repositorySelection := fields.repositorySelection }

def installationObject (payload : PyVal) : Py PyVal := do
  return (← payload.get "installation" .none).or (.dict [])

/-- `installation_id_from` of the ingestion service, which takes an id that is not a number
for none. -/
def installationIdFrom (u : Unicode) (payload : PyVal) : Py (Option Int) := do
  let raw ← (← installationObject payload).get "id" .none
  if raw.isNone then return none
  match raw.toInt u with
  | .ok n => return some n
  | .error .typeError | .error .valueError => return none
  | .error e => throw e

/-- Enrols the installation, or refreshes a row that is not deleted. A statement with a number
that its column does not take raises: on SQLite the SELECT with it, else the write of it. -/
def upsert (u : Unicode) (t : Installations) (installation : PyVal) :
    Installations × Py (Option Installation) :=
  match installationFields u installation with
  | .error e => (t, .error e)
  | .ok fields =>
      match fields.installationId with
      | none => (t, .ok none)
      | some i =>
          if !t.integers.holds i then (t, .error .dataError)
          else match t.get i with
          | none =>
              if !fields.accountId.all t.integers.holds then (t, .error .dataError)
              else match t.insert (fields.newRow i) with
              | some t' => (t', .ok (some (fields.newRow i)))
              | none => (t, .ok (t.get i))
          | some row =>
              if row.deletedAt.isSome then (t, .ok (some row))
              else if !fields.accountId.all t.integers.holds then (t, .error .dataError)
              else (t.put (fields.refresh row), .ok (some (fields.refresh row)))

def activeActions : List String := ["created", "new_permissions_accepted", "unsuspend"]

inductive EventStatus where
  | ignored
  | deletedInstallationIgnored
  | active
  | suspended
  | deleted
  | noop
  | recorded
deriving DecidableEq

def applyAction (t : Installations) (action : String) (row : Installation) (now : Time) :
    Installations × EventStatus :=
  if action ∈ activeActions then
    if row.deletedAt.isSome then (t, .deletedInstallationIgnored)
    else if row.suspendedAt.isSome then (t.put { row with suspendedAt := none }, .active)
    else (t, .active)
  else if action = "suspend" then
    (t.put { row with suspendedAt := row.suspendedAt.or (some now) }, .suspended)
  else if action = "deleted" then
    (t.put { row with deletedAt := row.deletedAt.or (some now) }, .deleted)
  else (t, .noop)

def applyEvent (u : Unicode) (t : Installations) (action : String) (payload : PyVal) (now : Time) :
    Installations × Py EventStatus :=
  match installationObject payload with
  | .error e => (t, .error e)
  | .ok installation =>
      match upsert u t installation with
      | (t, .error e) => (t, .error e)
      | (t, .ok none) => (t, .ok .ignored)
      | (t, .ok (some row)) =>
          let (t, status) := applyAction t action row now
          (t, .ok status)

def repositoriesOf (payload : PyVal) (key : String) : Py (List PyVal) := do
  (← ((← payload.get key .none).or (.list [])).iter).mapM fun r => r.get "full_name" .none

def applyRepositoriesEvent (u : Unicode) (t : Installations) (payload : PyVal) :
    Installations × Py EventStatus :=
  match installationObject payload with
  | .error e => (t, .error e)
  | .ok installation =>
      match upsert u t installation with
      | (t, .error e) => (t, .error e)
      | (t, .ok none) => (t, .ok .ignored)
      | (t, .ok (some _)) =>
          (t, do
            let _ ← repositoriesOf payload "repositories_added"
            let _ ← repositoriesOf payload "repositories_removed"
            return .recorded)

/-- The tenancy gate of a pull-request delivery on a multi-tenant instance: the
installation it names is enrolled and has to be active. -/
def tenancyGate (u : Unicode) (t : Installations) (payload : PyVal) : Installations × Py Bool :=
  match installationIdFrom u payload with
  | .error e => (t, .error e)
  | .ok none => (t, .ok true)
  | .ok (some i) =>
      match installationObject payload with
      | .error e => (t, .error e)
      | .ok installation =>
          match upsert u t installation with
          | (t, .error e) => (t, .error e)
          | (t, .ok _) => (t, .ok (t.getActive i).isSome)

/-- The deliveries that reach the table. -/
inductive Delivery where
  | installation (payload : PyVal) (now : Time)
  | installationRepositories (payload : PyVal)
  /-- One that `parse_event` accepts. -/
  | pullRequest (payload : PyVal)

def actionOf (u : Unicode) (payload : PyVal) : Py String := do
  return ((← payload.get "action" .none).or (.str "")).toStr u

def Installations.receive (u : Unicode) (t : Installations) : Delivery → Installations
  | .installation payload now =>
      match actionOf u payload with
      | .error _ => t
      | .ok action => (applyEvent u t action payload now).1
  | .installationRepositories payload =>
      match actionOf u payload with
      | .error _ => t
      | .ok _ => (applyRepositoriesEvent u t payload).1
  | .pullRequest payload => (tenancyGate u t payload).1

end AutoPR.Tenancy
