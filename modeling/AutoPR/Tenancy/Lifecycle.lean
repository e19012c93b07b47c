import Mathlib.Data.List.Induction
import AutoPR.Tenancy.Store

/-! The life of a tenant. What the table says about one installation is a function of
the signals that its own deliveries gave, in their order. -/
namespace AutoPR.Tenancy
open Python

inductive Signal where
  | enrol
  | resume
  | suspend
  | delete
deriving DecidableEq

/-- Signals that decide whether the tenant is suspended. -/
def Signal.switches : Signal → Bool
  | .resume | .suspend => true
  | .enrol | .delete => false

inductive Standing where
  | unknown
  | active
  | suspended
  | deleted
deriving DecidableEq

namespace Standing

def hear : Standing → Signal → Standing
  | .deleted, _ | _, .delete => .deleted
  | _, .suspend => .suspended
  | _, .resume => .active
  | .unknown, .enrol => .active
  | s, .enrol => s

def after (signals : List Signal) : Standing := signals.foldl hear .unknown

theorem after_append (signals : List Signal) (x : Signal) :
    after (signals ++ [x]) = (after signals).hear x := by
  simp [after]

theorem after_unknown (signals : List Signal) : after signals = .unknown ↔ signals = [] := by
  induction signals using List.reverseRecOn with
  | nil => simp [after]
  | append_singleton signals x ih =>
    rw [after_append]
    cases after signals <;> cases x <;> simp [hear]

theorem after_deleted (signals : List Signal) :
    after signals = .deleted ↔ .delete ∈ signals := by
  induction signals using List.reverseRecOn with
  | nil => simp [after]
  | append_singleton signals x ih =>
    rw [after_append, List.mem_append, ← ih]
    cases after signals <;> cases x <;> simp [hear]

theorem after_suspended {signals : List Signal} (h : .delete ∉ signals) :
    after signals = .suspended ↔ (signals.filter (·.switches)).getLast? = some .suspend := by
  induction signals using List.reverseRecOn with
  | nil => simp [after]
  | append_singleton signals x ih =>
    have hbefore : .delete ∉ signals := fun hmem => h (List.mem_append_left _ hmem)
    have hopen : after signals ≠ .deleted := mt (after_deleted signals).mp hbefore
    rw [after_append, List.filter_append]
    cases x with
    | enrol =>
      have hkept := ih hbefore
      cases hafter : after signals <;> simp_all [hear, Signal.switches]
    | resume => cases hafter : after signals <;> simp_all [hear, Signal.switches]
    | suspend => cases hafter : after signals <;> simp_all [hear, Signal.switches]
    | delete => simp at h

theorem after_active (signals : List Signal) :
    after signals = .active ↔
      signals ≠ [] ∧ .delete ∉ signals ∧
        (signals.filter (·.switches)).getLast? ≠ some .suspend := by
  constructor
  · intro hactive
    have hnot : .delete ∉ signals := by
      rw [← after_deleted, hactive]
      exact Standing.noConfusion
    refine ⟨?_, hnot, ?_⟩
    · rw [ne_eq, ← after_unknown, hactive]
      exact Standing.noConfusion
    · rw [ne_eq, ← after_suspended hnot, hactive]
      exact Standing.noConfusion
  · rintro ⟨hsome, hnot, hlast⟩
    cases hafter : after signals with
    | active => rfl
    | unknown => exact absurd ((after_unknown signals).mp hafter) hsome
    | suspended => exact absurd ((after_suspended hnot).mp hafter) hlast
    | deleted => exact absurd ((after_deleted signals).mp hafter) hnot

end Standing

section
variable {u : Unicode} {t t' : Installations} {row : Installation} {i : Int}

theorem get_id (h : t.get i = some row) : row.installationId = i := by
  simpa using List.find?_some h

theorem get_insert (h : t.insert row = some t') (j : Int) :
    t'.get j = if j = row.installationId then some row else t.get j := by
  unfold Installations.insert at h
  split at h
  · cases h
  · rename_i hfresh
    cases h
    have hnone : t.get row.installationId = none := by
      simp only [List.mem_map, not_exists, not_and] at hfresh
      exact List.find?_eq_none.mpr fun old hold => by simpa using hfresh old hold
    unfold Installations.get
    rw [List.find?_append]
    split
    · rename_i hj
      subst hj
      rw [show t.rows.find? _ = none from hnone]
      simp
    · rename_i hj
      simp [Ne.symm hj]

theorem insert_of_get (h : t.get row.installationId = none) : ∃ t', t.insert row = some t' := by
  have hfresh : row.installationId ∉ t.rows.map (·.installationId) := by
    intro hmem
    obtain ⟨old, hold, heq⟩ := List.mem_map.mp hmem
    have hne := List.find?_eq_none.mp h old hold
    simp [heq] at hne
  exact ⟨_, dif_neg hfresh⟩

theorem insert_integers (h : t.insert row = some t') : t'.integers = t.integers := by
  unfold Installations.insert at h
  split at h
  · cases h
  · cases h
    rfl

theorem find_put (rows : List Installation) (row : Installation) (j : Int) :
    (rows.map fun old => if old.installationId = row.installationId then row else old).find?
        (·.installationId = j) =
      if j = row.installationId then (rows.find? (·.installationId = j)).map fun _ => row
      else rows.find? (·.installationId = j) := by
  induction rows with
  | nil => simp
  | cons old rest ih =>
    simp only [List.map_cons, List.find?_cons]
    rw [ih]
    by_cases hold : old.installationId = row.installationId
    · by_cases hj : j = row.installationId
      · simp [hold, hj]
      · simp [hold, hj, Ne.symm hj]
    · by_cases hj : j = row.installationId
      · simp [hold, hj]
      · simp [hold, hj]

theorem get_put (h : (t.get row.installationId).isSome) (j : Int) :
    (t.put row).get j = if j = row.installationId then some row else t.get j := by
  have hfind : (t.put row).get j = if j = row.installationId
      then (t.get j).map fun _ => row else t.get j := find_put t.rows row j
  rw [hfind]
  split
  · rename_i hj
    subst hj
    obtain ⟨old, hold⟩ := Option.isSome_iff_exists.mp h
    rw [hold]
    rfl
  · rfl

end

/-- The id that a handler gets out of a payload. One that makes the handler raise
before it reads the table names nobody. -/
def tenantOf (u : Unicode) (payload : PyVal) : Option Int :=
  match (installationObject payload).bind (installationFields u) with
  | .ok fields => fields.installationId
  | .error _ => none

def InstallationFields.fits (fields : InstallationFields) (integers : IntegerColumn) : Bool :=
  fields.installationId.all integers.holds && fields.accountId.all integers.holds

def storable (u : Unicode) (integers : IntegerColumn) (payload : PyVal) : Bool :=
  match (installationObject payload).bind (installationFields u) with
  | .ok fields => fields.fits integers
  | .error _ => true

def Signal.ofAction (action : String) : Signal :=
  if action ∈ activeActions then .resume
  else if action = "suspend" then .suspend
  else if action = "deleted" then .delete
  else .enrol

namespace Delivery

def tenant (u : Unicode) : Delivery → Option Int
  | .installation payload _ | .installationRepositories payload | .pullRequest payload =>
      tenantOf u payload

/-- The database takes the numbers of the delivery; it makes a handler with others raise. -/
def storable (u : Unicode) (integers : IntegerColumn) : Delivery → Bool
  | .installation payload _ | .installationRepositories payload | .pullRequest payload =>
      Tenancy.storable u integers payload

def signal (u : Unicode) : Delivery → Signal
  | .installation payload _ =>
      match actionOf u payload with
      | .ok action => .ofAction action
      | .error _ => .enrol
  | .installationRepositories _ | .pullRequest _ => .enrol

end Delivery

def Standing.of : Option Installation → Standing
  | none => .unknown
  | some row =>
      if row.deletedAt.isSome then .deleted
      else if row.suspendedAt.isSome then .suspended
      else .active

section
variable {u : Unicode} {t : Installations} {installation payload : PyVal} {i : Int}
  {fields : InstallationFields} {row : Installation}

theorem Standing.of_active (found : Option Installation) :
    Standing.of found = .active ↔ (found.filter (·.isActive)).isSome = true := by
  cases found with
  | none => simp [Standing.of]
  | some row =>
    cases hs : row.suspendedAt <;> cases hd : row.deletedAt <;>
      simp [Standing.of, Installation.isActive, hs, hd]

theorem Standing.of_unknown (found : Option Installation) :
    Standing.of found = .unknown ↔ found = none := by
  cases found with
  | none => simp [Standing.of]
  | some row =>
    cases hs : row.suspendedAt <;> cases hd : row.deletedAt <;> simp [Standing.of, hs, hd]

theorem refresh_standing (hopen : ¬ row.deletedAt.isSome) :
    Standing.of (some (fields.refresh row)) = (Standing.of (some row)).hear .enrol := by
  cases hs : row.suspendedAt <;>
    simp [Standing.of, Standing.hear, InstallationFields.refresh, hopen, hs]

/-- The table takes the numbers that are written: no account over a deleted row. -/
def Installations.takes (t : Installations) (i : Int) (account : Option Int) : Bool :=
  t.integers.holds i && ((t.get i).any (·.deletedAt.isSome) || account.all t.integers.holds)

theorem takes_fits (hid : fields.installationId = some i) :
    (t.takes i fields.accountId = true → fields.fits t.integers = true ∨
      Standing.of (t.get i) = .deleted) ∧
    (t.takes i fields.accountId = false → fields.fits t.integers = false) := by
  unfold Installations.takes InstallationFields.fits
  rw [hid, Option.all_some]
  cases hrow : t.get i with
  | none => simp +contextual
  | some row =>
    cases hdeleted : row.deletedAt <;> simp +contextual [Standing.of, hdeleted]

theorem upsert_row (hfields : installationFields u installation = .ok fields)
    (hid : fields.installationId = some i) :
    (t.takes i fields.accountId = true ∧ ∃ t' row,
      upsert u t installation = (t', .ok (some row)) ∧
      Standing.of (some row) = (Standing.of (t.get i)).hear .enrol ∧
      t'.integers = t.integers ∧ ∀ j, t'.get j = if j = i then some row else t.get j) ∨
    (t.takes i fields.accountId = false ∧ upsert u t installation = (t, .error .dataError)) := by
  unfold upsert Installations.takes
  rw [hfields]
  simp only [hid]
  cases hholds : t.integers.holds i with
  | false => exact .inr ⟨rfl, rfl⟩
  | true =>
    cases hget : t.get i with
    | none =>
      cases haccount : fields.accountId.all t.integers.holds with
      | false => exact .inr ⟨rfl, by simp⟩
      | true =>
        have hfresh : t.get (fields.newRow i).installationId = none := hget
        obtain ⟨t', ht'⟩ := insert_of_get hfresh
        refine .inl ⟨rfl, t', fields.newRow i, ?_, rfl, insert_integers ht', get_insert ht'⟩
        simp [ht']
    | some row =>
      by_cases hdeleted : row.deletedAt.isSome
      · refine .inl ⟨by simp [hdeleted], t, row, by simp [hdeleted], ?_, rfl, fun j => ?_⟩
        · simp [Standing.of, Standing.hear, hdeleted]
        · split
          · rename_i hj
            rw [hj, hget]
          · rfl
      · cases haccount : fields.accountId.all t.integers.holds with
        | false => exact .inr ⟨by simp [hdeleted], by simp [hdeleted]⟩
        | true =>
          have hrow : row.installationId = i := get_id hget
          have hput : ∀ j, (t.put (fields.refresh row)).get j =
              if j = row.installationId then some (fields.refresh row) else t.get j :=
            get_put (by show (t.get row.installationId).isSome; rw [hrow, hget]; rfl)
          refine .inl ⟨by simp, t.put (fields.refresh row), fields.refresh row,
            by simp [hdeleted], refresh_standing hdeleted, rfl, fun j => ?_⟩
          rw [hput, hrow]

theorem applyAction_get (h : t.get row.installationId = some row) (action : String) (now : Time) :
    ∃ new, Standing.of (some new) = (Standing.of (some row)).hear (.ofAction action) ∧
      ∀ j, (applyAction t action row now).1.get j =
        if j = row.installationId then some new else t.get j := by
  have hsame : ∀ j, t.get j = if j = row.installationId then some row else t.get j := by
    intro j
    split
    · rename_i hj
      rw [hj, h]
    · rfl
  have hput : ∀ new : Installation, new.installationId = row.installationId →
      ∀ j, (t.put new).get j = if j = row.installationId then some new else t.get j := by
    intro new hid j
    rw [get_put (by rw [hid, h]; rfl) j, hid]
  unfold applyAction Signal.ofAction
  by_cases hactive : action ∈ activeActions
  · simp only [if_pos hactive]
    by_cases hdeleted : row.deletedAt.isSome
    · refine ⟨row, ?_, by simpa [hdeleted] using hsame⟩
      simp [Standing.of, Standing.hear, hdeleted]
    · by_cases hsuspended : row.suspendedAt.isSome
      · refine ⟨{ row with suspendedAt := none }, ?_, ?_⟩
        · simp [Standing.of, Standing.hear, hdeleted, hsuspended]
        · simpa [hdeleted, hsuspended] using hput { row with suspendedAt := none } rfl
      · refine ⟨row, ?_, by simpa [hdeleted, hsuspended] using hsame⟩
        simp [Standing.of, Standing.hear, hdeleted, hsuspended]
  · simp only [if_neg hactive]
    by_cases hsuspend : action = "suspend"
    · simp only [if_pos hsuspend]
      refine ⟨_, ?_, hput { row with suspendedAt := row.suspendedAt.or (some now) } rfl⟩
      by_cases hdeleted : row.deletedAt.isSome <;> by_cases hsuspended : row.suspendedAt.isSome <;>
        simp [Standing.of, Standing.hear, hdeleted, hsuspended]
    · simp only [if_neg hsuspend]
      by_cases hdelete : action = "deleted"
      · simp only [if_pos hdelete]
        refine ⟨_, ?_, hput { row with deletedAt := row.deletedAt.or (some now) } rfl⟩
        cases hstanding : Standing.of (some row) <;> simp [Standing.of, Standing.hear]
      · simp only [if_neg hdelete]
        refine ⟨row, ?_, hsame⟩
        by_cases hdeleted : row.deletedAt.isSome <;>
          by_cases hsuspended : row.suspendedAt.isSome <;>
          simp [Standing.of, Standing.hear, hdeleted, hsuspended]

theorem tenantOf_eq_some (h : tenantOf u payload = some i) :
    ∃ installation fields, installationObject payload = .ok installation ∧
      installationFields u installation = .ok fields ∧ fields.installationId = some i := by
  unfold tenantOf at h
  cases hobject : installationObject payload with
  | error e => simp [hobject, Except.bind] at h
  | ok installation =>
    cases hfields : installationFields u installation with
    | error e => simp [hobject, hfields, Except.bind] at h
    | ok fields =>
      simp only [hobject, Except.bind, hfields] at h
      exact ⟨installation, fields, rfl, hfields, h⟩

theorem actionOf_ok (h : installationObject payload = .ok installation) :
    ∃ action, actionOf u payload = .ok action := by
  cases payload with
  | dict items => exact ⟨_, rfl⟩
  | _ => cases h

theorem installationIdFrom_eq (hobject : installationObject payload = .ok installation)
    (hfields : installationFields u installation = .ok fields)
    (hid : fields.installationId = some i) : installationIdFrom u payload = .ok (some i) := by
  cases installation with
  | dict items =>
    unfold installationFields at hfields
    simp only [PyVal.get, bind, Except.bind, pure, Except.pure] at hfields
    split at hfields
    · cases hfields
    · split at hfields
      · cases hfields
      · split at hfields
        · cases hfields
        · cases hfields
          simp only at hid
          unfold installationIdFrom
          simp only [hobject, PyVal.get, bind, Except.bind, pure, Except.pure]
          generalize (items.lookup "id").getD .none = raw at hid ⊢
          cases raw with
          | int n => cases hid; rfl
          | str s =>
            have hparse : parseInt u s = some i := hid
            simp [PyVal.isNone, PyVal.toInt, hparse, pure, Except.pure]
          | _ => cases hid
  | _ => cases hfields

theorem upsert_nobody (h : tenantOf u payload = none)
    (hobject : installationObject payload = .ok installation) :
    upsert u t installation = (t, .ok none) ∨ ∃ e, upsert u t installation = (t, .error e) := by
  unfold tenantOf at h
  simp only [hobject, Except.bind] at h
  unfold upsert
  cases hfields : installationFields u installation with
  | error e => exact .inr ⟨e, rfl⟩
  | ok fields =>
    simp only [hfields] at h
    simp only [h]
    exact .inl trivial

theorem receive_nobody {e : Delivery} (h : e.tenant u = none) : t.receive u e = t := by
  cases e with
  | installation payload now =>
    simp only [Installations.receive, applyEvent]
    cases actionOf u payload with
    | error e => rfl
    | ok action =>
      cases hobject : installationObject payload with
      | error e => rfl
      | ok installation =>
        obtain hup | ⟨e, hup⟩ := upsert_nobody (t := t) h hobject <;> simp only [hup]
  | installationRepositories payload =>
    simp only [Installations.receive, applyRepositoriesEvent]
    cases actionOf u payload with
    | error e => rfl
    | ok action =>
      cases hobject : installationObject payload with
      | error e => rfl
      | ok installation =>
        obtain hup | ⟨e, hup⟩ := upsert_nobody (t := t) h hobject <;> simp only [hup]
  | pullRequest payload =>
    simp only [Installations.receive, tenancyGate]
    cases installationIdFrom u payload with
    | error e => rfl
    | ok found =>
      cases found with
      | none => rfl
      | some i =>
        cases hobject : installationObject payload with
        | error e => rfl
        | ok installation =>
          obtain hup | ⟨e, hup⟩ := upsert_nobody (t := t) h hobject <;> simp only [hup]

theorem storable_eq (hobject : installationObject payload = .ok installation)
    (hfields : installationFields u installation = .ok fields) (integers : IntegerColumn) :
    storable u integers payload = fields.fits integers := by
  unfold storable
  simp only [hobject, Except.bind, hfields]

theorem heard_of_row {fits : Bool} {s : Standing} (x : Signal)
    (h : fits = true ∨ s = .deleted) : (s.hear .enrol).hear x = if fits then s.hear x else s := by
  obtain rfl | rfl := h
  · cases s <;> cases x <;> rfl
  · cases fits <;> cases x <;> rfl

/-- A delivery changes the row of the installation that it names, as its signal says if the
database takes it, and no other. -/
theorem receive_row {e : Delivery} (h : e.tenant u = some i) :
    ∃ found, (Standing.of found = if e.storable u t.integers then
        (Standing.of (t.get i)).hear (e.signal u) else Standing.of (t.get i)) ∧
      ∀ j, (t.receive u e).get j = if j = i then found else t.get j := by
  have hkept : ∀ fits, fits = false → ∃ found,
      (Standing.of found = if fits then
        (Standing.of (t.get i)).hear (e.signal u) else Standing.of (t.get i)) ∧
      ∀ j, t.get j = if j = i then found else t.get j := by
    rintro fits rfl
    refine ⟨t.get i, rfl, fun j => ?_⟩
    split
    · rename_i hj
      rw [hj]
    · rfl
  have henrolled : ∀ (fits : Bool) (found : Installation), e.signal u = .enrol →
      Standing.of (some found) = (Standing.of (t.get i)).hear .enrol →
      (fits = true ∨ Standing.of (t.get i) = .deleted) →
      Standing.of (some found) = if fits then
        (Standing.of (t.get i)).hear (e.signal u) else Standing.of (t.get i) := by
    intro fits found hsignal hstanding hfits
    rw [hsignal, hstanding, ← heard_of_row .enrol hfits]
    cases Standing.of (t.get i) <;> rfl
  cases e with
  | installation payload now =>
    obtain ⟨installation, fields, hobject, hfields, hid⟩ := tenantOf_eq_some h
    obtain ⟨action, haction⟩ := actionOf_ok (u := u) hobject
    simp only [Installations.receive, haction, applyEvent, hobject, Delivery.storable,
      storable_eq hobject hfields]
    obtain ⟨htakes, t', row, hup, hstanding, -, hget⟩ | ⟨htakes, hup⟩ :=
      upsert_row (t := t) hfields hid
    · have hself : t'.get i = some row := by simp [hget]
      have hrow : row.installationId = i := get_id hself
      obtain ⟨new, hnew, hother⟩ := applyAction_get (by rw [hrow]; exact hself) action now
      refine ⟨some new, ?_, fun j => ?_⟩
      · rw [hnew, hstanding, heard_of_row _ ((takes_fits hid).1 htakes)]
        simp only [Delivery.signal, haction]
      · simp only [hup]
        rw [hother, hrow, hget]
        split <;> rfl
    · simp only [hup]
      exact hkept _ ((takes_fits hid).2 htakes)
  | installationRepositories payload =>
    obtain ⟨installation, fields, hobject, hfields, hid⟩ := tenantOf_eq_some h
    obtain ⟨action, haction⟩ := actionOf_ok (u := u) hobject
    simp only [Installations.receive, haction, applyRepositoriesEvent, hobject, Delivery.storable,
      storable_eq hobject hfields]
    obtain ⟨htakes, t', row, hup, hstanding, -, hget⟩ | ⟨htakes, hup⟩ :=
      upsert_row (t := t) hfields hid
    · simp only [hup]
      exact ⟨some row, henrolled _ row rfl hstanding ((takes_fits hid).1 htakes), hget⟩
    · simp only [hup]
      exact hkept _ ((takes_fits hid).2 htakes)
  | pullRequest payload =>
    obtain ⟨installation, fields, hobject, hfields, hid⟩ := tenantOf_eq_some h
    simp only [Installations.receive, tenancyGate, installationIdFrom_eq hobject hfields hid,
      hobject, Delivery.storable, storable_eq hobject hfields]
    obtain ⟨htakes, t', row, hup, hstanding, -, hget⟩ | ⟨htakes, hup⟩ :=
      upsert_row (t := t) hfields hid
    · simp only [hup]
      exact ⟨some row, henrolled _ row rfl hstanding ((takes_fits hid).1 htakes), hget⟩
    · simp only [hup]
      exact hkept _ ((takes_fits hid).2 htakes)

theorem upsert_integers : (upsert u t installation).1.integers = t.integers := by
  cases hfields : installationFields u installation with
  | error e => simp only [upsert, hfields]
  | ok fields =>
    cases hid : fields.installationId with
    | none => simp only [upsert, hfields, hid]
    | some i =>
      obtain ⟨-, t', row, hup, -, hintegers, -⟩ | ⟨-, hup⟩ := upsert_row (t := t) hfields hid
      · rw [hup]
        exact hintegers
      · rw [hup]

theorem applyAction_integers (action : String) (now : Time) :
    (applyAction t action row now).1.integers = t.integers := by
  unfold applyAction
  repeat' split
  all_goals rfl

theorem receive_integers (e : Delivery) : (t.receive u e).integers = t.integers := by
  cases e with
  | installation payload now =>
    simp only [Installations.receive, applyEvent]
    cases actionOf u payload with
    | error e => rfl
    | ok action =>
      cases hobject : installationObject payload with
      | error e => rfl
      | ok installation =>
        have hkept := @upsert_integers u t installation
        rcases hup : upsert u t installation with ⟨t', e | none | row⟩ <;>
          simp only [hup] at hkept ⊢
        · exact hkept
        · exact hkept
        · exact (applyAction_integers action now).trans hkept
  | installationRepositories payload =>
    simp only [Installations.receive, applyRepositoriesEvent]
    cases actionOf u payload with
    | error e => rfl
    | ok action =>
      cases hobject : installationObject payload with
      | error e => rfl
      | ok installation =>
        have hkept := @upsert_integers u t installation
        rcases hup : upsert u t installation with ⟨t', e | none | row⟩ <;>
          simp only [hup] at hkept ⊢ <;> exact hkept
  | pullRequest payload =>
    simp only [Installations.receive, tenancyGate]
    cases installationIdFrom u payload with
    | error e => rfl
    | ok found =>
      cases found with
      | none => rfl
      | some i =>
        cases hobject : installationObject payload with
        | error e => rfl
        | ok installation =>
          have hkept := @upsert_integers u t installation
          rcases hup : upsert u t installation with ⟨t', e | row⟩ <;>
            simp only [hup] at hkept ⊢ <;> exact hkept

end

/-- The table after a history of deliveries, oldest first. -/
def Installations.after (u : Unicode) (integers : IntegerColumn) (history : List Delivery) :
    Installations :=
  history.foldl (Installations.receive u) (.empty integers)

/-- The signals of one installation, in their order, out of the deliveries whose numbers the
database takes. -/
def signals (u : Unicode) (integers : IntegerColumn) (i : Int) (history : List Delivery) :
    List Signal :=
  (history.filter fun e => e.tenant u = some i && e.storable u integers).map (·.signal u)

section
variable (u : Unicode) (integers : IntegerColumn) (i : Int) (history : List Delivery)

theorem signals_append (later : List Delivery) :
    signals u integers i (history ++ later) =
      signals u integers i history ++ signals u integers i later := by
  simp [signals]

theorem Installations.after_append (e : Delivery) :
    after u integers (history ++ [e]) = (after u integers history).receive u e := by
  simp [after]

theorem after_integers : (Installations.after u integers history).integers = integers := by
  induction history using List.reverseRecOn with
  | nil => rfl
  | append_singleton history e ih => rw [Installations.after_append, receive_integers, ih]

theorem receive_other {u : Unicode} {t : Installations} {e : Delivery} {i : Int}
    (h : e.tenant u ≠ some i) : (t.receive u e).get i = t.get i := by
  cases htenant : e.tenant u with
  | none => rw [receive_nobody htenant]
  | some j =>
    obtain ⟨found, -, hget⟩ := receive_row (t := t) htenant
    rw [hget, if_neg]
    rintro rfl
    exact h htenant

theorem standing_after :
    Standing.of ((Installations.after u integers history).get i) =
      .after (signals u integers i history) := by
  induction history using List.reverseRecOn with
  | nil => rfl
  | append_singleton history e ih =>
    rw [Installations.after_append, signals_append]
    by_cases htenant : e.tenant u = some i
    · obtain ⟨found, hstanding, hget⟩ :=
        receive_row (t := .after u integers history) htenant
      rw [hget, if_pos rfl, hstanding, after_integers, ih]
      cases hstorable : e.storable u integers with
      | true =>
        have hsignal : signals u integers i [e] = [e.signal u] := by
          simp [signals, htenant, hstorable]
        rw [hsignal, Standing.after_append, if_pos rfl]
      | false =>
        have hsilent : signals u integers i [e] = [] := by simp [signals, hstorable]
        rw [hsilent, List.append_nil, if_neg Bool.false_ne_true]
    · have hsilent : signals u integers i [e] = [] := by simp [signals, htenant]
      rw [receive_other htenant, ih, hsilent, List.append_nil]

end

theorem filter_length_le {rows : List Installation} (h : (rows.map (·.installationId)).Nodup)
    (i : Int) : (rows.filter (·.installationId = i)).length ≤ 1 := by
  induction rows with
  | nil => exact Nat.zero_le 1
  | cons row rest ih =>
    obtain ⟨hnot, hrest⟩ := List.nodup_cons.mp h
    rw [List.filter_cons]
    split
    · rename_i hrow
      have heq : row.installationId = i := by simpa using hrow
      have hnone : rest.filter (·.installationId = i) = [] := by
        apply List.filter_eq_nil_iff.mpr
        intro other hother hid
        have hsame : other.installationId = i := by simpa using hid
        exact hnot (List.mem_map.mpr ⟨other, hother, hsame.trans heq.symm⟩)
      rw [hnone]
      exact Nat.le_refl 1
    · exact ih hrest

theorem rows_length (t : Installations) (i : Int) :
    (t.rows.filter (·.installationId = i)).length = if (t.get i).isSome then 1 else 0 := by
  cases hget : t.get i with
  | none =>
    have hnone : t.rows.filter (·.installationId = i) = [] :=
      List.filter_eq_nil_iff.mpr (List.find?_eq_none.mp hget)
    rw [hnone]
    rfl
  | some row =>
    have hmem : row ∈ t.rows.filter (·.installationId = i) :=
      List.mem_filter.mpr ⟨List.mem_of_find?_eq_some hget, by simpa using get_id hget⟩
    have hpos := List.length_pos_of_mem hmem
    have hle := filter_length_le t.unique i
    rw [Option.isSome_some, if_pos rfl]
    omega

/-- After any history of deliveries an installation is active exactly when one of them
named it, none deleted it, and the last switch among them is not a suspension. A deleted
installation is never active again, there is one row for each installation that was
named, and a delivery leaves the rows of the others alone. -/
theorem tenant_lifecycle (u : Unicode) (integers : IntegerColumn) (history : List Delivery) :
    (∀ i, ((Installations.after u integers history).getActive i).isSome ↔
      signals u integers i history ≠ [] ∧ .delete ∉ signals u integers i history ∧
        ((signals u integers i history).filter (·.switches)).getLast? ≠ some .suspend) ∧
    (∀ i later, .delete ∈ signals u integers i history →
      (Installations.after u integers (history ++ later)).getActive i = none) ∧
    (∀ i, ((Installations.after u integers history).rows.filter
        (·.installationId = i)).length =
      if signals u integers i history = [] then 0 else 1) ∧
    ∀ i e, e.tenant u ≠ some i →
      (Installations.after u integers (history ++ [e])).get i =
        (Installations.after u integers history).get i := by
  have hactive : ∀ i past, ((Installations.after u integers past).getActive i).isSome = true ↔
      Standing.after (signals u integers i past) = .active := by
    intro i past
    rw [← standing_after]
    exact (Standing.of_active _).symm
  refine ⟨?_, ?_, ?_, ?_⟩
  · intro i
    rw [hactive]
    exact Standing.after_active _
  · intro i later hdelete
    rw [← Option.not_isSome_iff_eq_none, hactive, Standing.after_active, signals_append]
    rintro ⟨-, hnot, -⟩
    exact hnot (List.mem_append_left _ hdelete)
  · intro i
    have hunknown : (Installations.after u integers history).get i = none ↔
        signals u integers i history = [] := by
      rw [← Standing.of_unknown, standing_after, Standing.after_unknown]
    rw [rows_length]
    by_cases hnone : signals u integers i history = []
    · rw [if_pos hnone, hunknown.mpr hnone]
      rfl
    · rw [if_neg hnone, if_pos]
      rw [Option.isSome_iff_ne_none]
      exact mt hunknown.mp hnone
  · intro i e htenant
    rw [Installations.after_append]
    exact receive_other htenant

end AutoPR.Tenancy
