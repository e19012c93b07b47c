import AutoPR.Tenancy.Readable
import AutoPR.Tenancy.Suspension

/-! The owner of a delivery's work. The id of the installation is decoded three times: for the
job, for the table of tenants, and for the decision, which sees what the job's row says. They
differ on truth values, on floats, on numbers that are not positive, and where the table does not
take the numbers of the payload. -/
namespace AutoPR.Tenancy
open Python

/-- The id of the installation, as the payload has it. -/
def rawId (payload : PyVal) : PyVal := (payload.field "installation").field "id"

/-- The job, the tenant and the decision get one owner, or none of them gets any. -/
def OwnersAgree (u : Unicode) (t : Installations) (payload : PyVal) : Prop :=
  ∃ owner, installationIdFrom u payload = .ok owner ∧
    (∃ installation t' row, installationObject payload = .ok installation ∧
      upsert u t installation = (t', .ok row) ∧ row.map (·.installationId) = owner ∧
      ∀ i, owner = some i → t'.get i = row) ∧
    ∀ (job : Jobs.PRJob) (added : Routing.PRState), job.installationId = owner →
      Routing.installationIdFrom u (jobState job added) = owner

/-- Ids on which the decoders agree: numbers from 1 on, also as strings, and what none of them
takes for a number. -/
def agreedId (u : Unicode) : PyVal → Bool
  | .bool _ => false
  | .float repr _ trunc => trunc.isNone && repr = "nan"
  | .int n => 0 < n
  | .str s => (parseInt u s).all (0 < ·)
  | .none | .list _ | .dict _ => true

section
variable {u : Unicode} {t : Installations} {payload : PyVal}

def ownerOf (u : Unicode) (id : PyVal) : Py (Option Int) :=
  match id.toInt u with
  | .ok n => .ok (some n)
  | .error .typeError | .error .valueError => .ok none
  | .error e => .error e

theorem installationIdFrom_eq_ownerOf (h : readableInstallation payload = true) :
    installationIdFrom u payload = ownerOf u (rawId payload) := by
  have hobject : ((payload.field "installation").or (.dict [])).isObject = true := by
    unfold readableInstallation at h
    simp only [Bool.and_eq_true] at h
    rw [isObject_or]
    exact h.1.2
  have hraw : ((payload.field "installation").or (.dict [])).get "id" .none =
      .ok (rawId payload) := by
    rw [get_eq hobject, field_or]
    rfl
  unfold installationIdFrom ownerOf
  rw [installationObject_eq (readable_object h)]
  change (((payload.field "installation").or (.dict [])).get "id" .none >>= _) = _
  rw [hraw]
  change (if (rawId payload).isNone then _ else _) = _
  cases hnone : (rawId payload).isNone with
  | true =>
    cases hid : rawId payload with
    | none => rfl
    | bool | int | float | str | list | dict =>
      rw [hid] at hnone
      cases hnone
  | false =>
    cases (rawId payload).toInt u with
    | ok n => rfl
    | error e => cases e <;> rfl

theorem jobState_owner (job : Jobs.PRJob) (added : Routing.PRState) :
    Routing.installationIdFrom u (jobState job added) = job.installationId.filter (0 < ·) := by
  unfold jobState Routing.installationIdFrom
  cases job.installationId with
  | none => rfl
  | some i => simp [Option.filter_some]

theorem ownersAgree_iff_decoded (h : readableInstallation payload = true) :
    OwnersAgree u t payload ↔ (∃ owner, ownerOf u (rawId payload) = .ok owner ∧
      asInt u (rawId payload) = owner ∧ owner.filter (0 < ·) = owner) ∧
        enrollable u t payload = true := by
  unfold OwnersAgree
  simp only [installationIdFrom_eq_ownerOf h]
  obtain ⟨-, htaken, installation, t', row, hobject, hupsert, hid, hget⟩ |
    ⟨hraises, ⟨e, hobject⟩ | ⟨installation, e, hobject, hupsert⟩⟩ := upsert_cases u t payload
  · rw [and_iff_left htaken]
    constructor
    · rintro ⟨owner, howner, ⟨installation', t'', row', hobject', hupsert', hid', -⟩, hjobs⟩
      refine ⟨owner, howner, ?_, ?_⟩
      · cases hobject.symm.trans hobject'
        cases hupsert.symm.trans hupsert'
        exact hid.symm.trans hid'
      · have hjob := hjobs ⟨"", "", 0, "", "", "", owner, .pending, 0, none, none, none, 0, 0⟩ {} rfl
        rwa [jobState_owner] at hjob
    · rintro ⟨owner, howner, hint, hpositive⟩
      refine ⟨owner, howner, ⟨installation, t', row, hobject, hupsert, hid.trans hint, ?_⟩, ?_⟩
      · exact fun i hi => hget i (hint.trans hi)
      · intro job added hjob
        rw [jobState_owner, hjob, hpositive]
  · rw [installationObject_eq (readable_object h)] at hobject
    cases hobject
  · rw [h, Bool.true_and] at hraises
    apply iff_of_false
    · rintro ⟨owner, -, ⟨installation', t', row, hobject', hupsert', -⟩, -⟩
      cases hobject.symm.trans hobject'
      cases hupsert.symm.trans hupsert'
    · rintro ⟨-, htaken⟩
      rw [hraises] at htaken
      cases htaken

theorem decoded_iff (id : PyVal) :
    (∃ owner, ownerOf u id = .ok owner ∧ asInt u id = owner ∧ owner.filter (0 < ·) = owner) ↔
      agreedId u id = true := by
  cases id with
  | none | list | dict => exact iff_of_true ⟨none, rfl, rfl, rfl⟩ rfl
  | bool b =>
    apply iff_of_false
    · rintro ⟨owner, howner, hint, -⟩
      cases howner
      cases hint
    · exact Bool.false_ne_true
  | int n =>
    have howner : ownerOf u (.int n) = .ok (some n) := rfl
    simp [howner, asInt, agreedId, Option.filter_some]
  | float repr isZero trunc =>
    cases trunc with
    | some n =>
      apply iff_of_false
      · rintro ⟨owner, howner, hint, -⟩
        cases howner
        cases hint
      · exact Bool.false_ne_true
    | none =>
      by_cases hnan : repr = "nan"
      · have howner : ownerOf u (.float repr isZero none) = .ok none := by
          simp only [ownerOf, PyVal.toInt, if_pos hnan]
          rfl
        rw [howner]
        simp [asInt, agreedId, hnan]
      · have howner : ownerOf u (.float repr isZero none) = .error .overflowError := by
          simp only [ownerOf, PyVal.toInt, if_neg hnan]
          rfl
        simp [howner, agreedId, hnan]
  | str s =>
    have howner : ownerOf u (.str s) = .ok (parseInt u s) := by
      simp only [ownerOf, PyVal.toInt]
      cases parseInt u s <;> rfl
    rw [howner]
    simp only [Except.ok.injEq, exists_eq_left', asInt, agreedId]
    cases parseInt u s with
    | none => simp
    | some n => simp [Option.filter_some]

/-- The decoders agree on the owner exactly where the id is a positive number, or is none for
all of them, and the table takes the numbers of the payload. -/
theorem ownersAgree_iff (h : readableInstallation payload = true) :
    OwnersAgree u t payload ↔
      agreedId u (rawId payload) = true ∧ enrollable u t payload = true := by
  rw [ownersAgree_iff_decoded h, decoded_iff]

end

/-- A delivery whose installation has this id. -/
def deliveryOf (id : PyVal) : PyVal := .dict [("installation", .dict [("id", id)])]

theorem ownersAgree_padded : OwnersAgree .ascii .empty (deliveryOf (.str " 42 ")) :=
  (ownersAgree_iff (by decide)).mpr (by decide)

/-- `true` is the job of tenant 1, whom nobody has enrolled. -/
theorem owner_true : ¬ OwnersAgree .ascii .empty (deliveryOf (.bool true)) := by
  rw [ownersAgree_iff_decoded (by decide), decoded_iff]
  decide

end AutoPR.Tenancy
