import AutoPR.Library.Returning
import AutoPR.Tenancy.Lifecycle

/-! Which tenancy events are read without an exception. What holds the ids has to be an object
or missing; the ids may be anything but numbers that their columns do not take. -/
namespace AutoPR.Tenancy
open Python

/-- The installation of a payload, and its account, are objects or missing. -/
def readableInstallation (payload : PyVal) : Bool :=
  let installation := payload.field "installation"
  payload.isObject && installation.isObjectual && (installation.field "account").isObjectual

/-- The id of the installation, as `_as_int` takes it. -/
def statedId (u : Unicode) (payload : PyVal) : Option Int :=
  asInt u ((payload.field "installation").field "id")

/-- The table takes the numbers of the payload; without an id nothing is written. -/
def enrollable (u : Unicode) (t : Installations) (payload : PyVal) : Bool :=
  (statedId u payload).all fun i =>
    t.takes i (asInt u (((payload.field "installation").field "account").field "id"))

def areObjects (v : PyVal) : Bool := !v.truthy || v.isListOf PyVal.isObject

/-- The lists of a repositories event; without an id they are not looked at. -/
def readableLists (u : Unicode) (payload : PyVal) : Bool :=
  (statedId u payload).isNone ||
    areObjects (payload.field "repositories_added") &&
      areObjects (payload.field "repositories_removed")

section
variable {u : Unicode} {t : Installations} {payload v : PyVal} {action key : String} {now : Time}

theorem returns_actionOf : Returns (actionOf u payload) ↔ payload.isObject = true := by
  unfold actionOf
  rw [returns_get_bind]
  simp only [returns_pure, and_true]

theorem readable_object (h : readableInstallation payload = true) : payload.isObject = true := by
  unfold readableInstallation at h
  simp only [Bool.and_eq_true] at h
  exact h.1.1

theorem returns_installationObject :
    Returns (installationObject payload) ↔ payload.isObject = true := by
  unfold installationObject
  rw [returns_get_bind]
  simp only [returns_pure, and_true]

theorem installationObject_eq (h : payload.isObject = true) :
    installationObject payload = .ok ((payload.field "installation").or (.dict [])) := by
  unfold installationObject
  rw [get_eq h]
  rfl

theorem returns_installationFields :
    Returns (installationFields u v) ↔
      v.isObject = true ∧ (v.field "account").isObjectual = true := by
  unfold installationFields
  simp only [returns_get_bind, returns_pure, isObject_or]
  tauto

theorem installationFields_ids {fields : InstallationFields}
    (h : installationFields u v = .ok fields) :
    fields.installationId = asInt u (v.field "id") ∧
      fields.accountId = asInt u ((v.field "account").field "id") := by
  obtain ⟨hobject, haccount⟩ := returns_installationFields.mp ⟨fields, h⟩
  have hshape : ((v.field "account").or (.dict [])).isObject = true := by
    rw [isObject_or]
    exact haccount
  unfold installationFields at h
  obtain ⟨account, hfound, h⟩ := ok_of_bind h
  obtain ⟨id, hid, h⟩ := ok_of_bind h
  obtain ⟨login, -, h⟩ := ok_of_bind h
  obtain ⟨kind, -, h⟩ := ok_of_bind h
  obtain ⟨number, hnumber, h⟩ := ok_of_bind h
  obtain ⟨target, -, h⟩ := ok_of_bind h
  obtain ⟨selection, -, h⟩ := ok_of_bind h
  rw [get_eq hobject] at hfound hid
  cases hfound
  cases hid
  rw [get_eq hshape, field_or] at hnumber
  cases hnumber
  cases h
  exact ⟨rfl, rfl⟩

/-- A readable installation is enrolled, unless it has no usable id; one whose numbers the table
does not take raises, as an unreadable one does. -/
theorem upsert_cases (u : Unicode) (t : Installations) (payload : PyVal) :
    (readableInstallation payload = true ∧ enrollable u t payload = true ∧
      ∃ installation t' row, installationObject payload = .ok installation ∧
        upsert u t installation = (t', .ok row) ∧
        row.map (·.installationId) = statedId u payload ∧
        ∀ i, statedId u payload = some i → t'.get i = row) ∨
    ((readableInstallation payload && enrollable u t payload) = false ∧
      ((∃ e, installationObject payload = .error e) ∨
        ∃ installation e, installationObject payload = .ok installation ∧
          upsert u t installation = (t, .error e))) := by
  unfold readableInstallation enrollable statedId
  dsimp only
  cases hpayload : payload.isObject with
  | false =>
    cases hobject : installationObject payload with
    | error e => exact .inr ⟨rfl, .inl ⟨e, rfl⟩⟩
    | ok installation =>
      have htrue := returns_installationObject.mp ⟨installation, hobject⟩
      rw [hpayload] at htrue
      cases htrue
  | true =>
    rw [installationObject_eq hpayload, Bool.true_and]
    have hshape := @returns_installationFields u ((payload.field "installation").or (.dict []))
    rw [isObject_or, field_or, ← Bool.and_eq_true] at hshape
    cases hfields : installationFields u ((payload.field "installation").or (.dict [])) with
    | error e =>
      have hunreadable := mt hshape.mpr (by rw [hfields]; exact not_returns e)
      rw [Bool.not_eq_true] at hunreadable
      refine .inr ⟨by rw [hunreadable, Bool.false_and], .inr ⟨_, e, rfl, ?_⟩⟩
      simp only [upsert, hfields]
    | ok fields =>
      have hreadable := hshape.mp ⟨fields, hfields⟩
      obtain ⟨hid, haccount⟩ := installationFields_ids hfields
      rw [field_or] at hid haccount
      rw [← hid, ← haccount, hreadable]
      cases hnumber : fields.installationId with
      | none =>
        refine .inl ⟨rfl, rfl, _, t, none, rfl, ?_, rfl, by simp⟩
        simp only [upsert, hfields, hnumber]
      | some i =>
        obtain ⟨htakes, t', row, hupsert, -, -, hget⟩ | ⟨htakes, hupsert⟩ :=
          upsert_row (t := t) hfields hnumber
        · have hrow : t'.get i = some row := by rw [hget i, if_pos rfl]
          refine .inl ⟨rfl, htakes, _, t', some row, rfl, hupsert, ?_, ?_⟩
          · rw [Option.map_some, get_id hrow]
          · intro j hj
            rw [← Option.some.inj hj, hrow]
        · exact .inr ⟨htakes, .inr ⟨_, _, rfl, hupsert⟩⟩

theorem returns_repositoriesOf (hpayload : payload.isObject = true) :
    Returns (repositoriesOf payload key) ↔ areObjects (payload.field key) = true := by
  unfold repositoriesOf
  rw [returns_get_bind, and_iff_right hpayload]
  unfold areObjects PyVal.or
  cases htruthy : (payload.field key).truthy with
  | false => exact iff_of_true (Returns.ok _) rfl
  | true =>
    rw [if_pos rfl, Bool.not_true, Bool.false_or, ← iter_all (fun _ => rfl) htruthy]
    exact returns_each fun r => returns_get

/-- An answer to a tenancy event; without a usable id it is that nothing has been done. -/
def Reports (u : Unicode) (payload : PyVal) (x : Py EventStatus) : Prop :=
  ∃ status, x = .ok status ∧ (statedId u payload = none → status = .ignored)

theorem not_reports (e : PyError) : ¬ Reports u payload (.error e) := by
  rintro ⟨status, hstatus, -⟩
  cases hstatus

theorem applyEvent_reports_iff :
    Reports u payload (applyEvent u t action payload now).2 ↔
      readableInstallation payload = true ∧ enrollable u t payload = true := by
  unfold applyEvent
  obtain ⟨hreadable, htaken, installation, t', row, hobject, hupsert, hrow, -⟩ |
    ⟨hraises, ⟨e, hobject⟩ | ⟨installation, e, hobject, hupsert⟩⟩ := upsert_cases u t payload
  · simp only [hobject, hupsert]
    refine iff_of_true ?_ ⟨hreadable, htaken⟩
    cases row with
    | none => exact ⟨.ignored, rfl, fun _ => rfl⟩
    | some row =>
      refine ⟨_, rfl, ?_⟩
      intro hnone
      rw [hnone] at hrow
      cases hrow
  · rw [← Bool.and_eq_true]
    simp only [hobject, hraises]
    exact iff_of_false (not_reports e) Bool.false_ne_true
  · rw [← Bool.and_eq_true]
    simp only [hobject, hupsert, hraises]
    exact iff_of_false (not_reports e) Bool.false_ne_true

theorem applyRepositoriesEvent_reports_iff :
    Reports u payload (applyRepositoriesEvent u t payload).2 ↔
      readableInstallation payload = true ∧ enrollable u t payload = true ∧
        readableLists u payload = true := by
  unfold applyRepositoriesEvent readableLists
  obtain ⟨hreadable, htaken, installation, t', row, hobject, hupsert, hrow, -⟩ |
    ⟨hraises, ⟨e, hobject⟩ | ⟨installation, e, hobject, hupsert⟩⟩ := upsert_cases u t payload
  · simp only [hobject, hupsert]
    rw [← hrow, and_iff_right hreadable, and_iff_right htaken]
    cases row with
    | none => exact iff_of_true ⟨.ignored, rfl, fun _ => rfl⟩ rfl
    | some row =>
      have hpayload := returns_installationObject.mp ⟨installation, hobject⟩
      rw [Option.map_some, Option.isNone_some, Bool.false_or, Bool.and_eq_true,
        ← returns_repositoriesOf hpayload, ← returns_repositoriesOf hpayload]
      have hlisted : Returns (do
          let _ ← repositoriesOf payload "repositories_added"
          let _ ← repositoriesOf payload "repositories_removed"
          return EventStatus.recorded) ↔ _ :=
        returns_bind_of fun _ => returns_bind_pure fun _ => Returns.ok _
      rw [← hlisted]
      constructor
      · rintro ⟨status, hstatus, -⟩
        exact ⟨status, hstatus⟩
      · rintro ⟨status, hstatus⟩
        refine ⟨status, hstatus, ?_⟩
        intro hnone
        rw [hnone] at hrow
        cases hrow
  · rw [← and_assoc, ← Bool.and_eq_true]
    simp only [hobject, hraises]
    exact iff_of_false (not_reports e) (by simp)
  · rw [← and_assoc, ← Bool.and_eq_true]
    simp only [hobject, hupsert, hraises]
    exact iff_of_false (not_reports e) (by simp)

end

end AutoPR.Tenancy
