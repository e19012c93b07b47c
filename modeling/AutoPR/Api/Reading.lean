import AutoPR.Api.History

/-! What a reader of the job history sees while deliveries are accepted and workers run. Rows are
never deleted and keep their time, so a page that is turned too late shows some jobs twice, but
none is skipped unless a job ahead of it has lost the status that is filtered for. -/
namespace AutoPR.Api
open Jobs Webhook UnitOfWork Browsing Transition

/-- The columns that decide about the place of a job in the list, and about the search. -/
structure SameListing (row row' : PRJob) : Prop where
  created : row'.createdAt = row.createdAt
  search : ∀ f q, jobMatches f q row' = jobMatches f q row

theorem SameListing.refl (row : PRJob) : SameListing row row := ⟨rfl, fun _ _ => rfl⟩

theorem SameListing.trans {row row' row'' : PRJob} (h : SameListing row row')
    (h' : SameListing row' row'') : SameListing row row'' :=
  ⟨h'.created.trans h.created, fun f q => (h'.search f q).trans (h.search f q)⟩

def Lasts (s t : Jobs.State) : Prop :=
  ∀ j row, s.jobs j = some row → ∃ job, t.jobs j = some job ∧ SameListing row job

theorem Lasts.refl (s : Jobs.State) : Lasts s s := fun _ row hrow => ⟨row, hrow, .refl row⟩

theorem Lasts.trans {s t u : Jobs.State} (h : Lasts s t) (h' : Lasts t u) : Lasts s u := by
  intro j row hrow
  obtain ⟨job, hjob, hsame⟩ := h j row hrow
  obtain ⟨last, hlast, hsame'⟩ := h' j job hjob
  exact ⟨last, hlast, hsame.trans hsame'⟩

theorem Lasts.created {s t : Jobs.State} (h : Lasts s t) (j : JobId) (row job : PRJob)
    (hrow : s.jobs j = some row) (hjob : t.jobs j = some job) :
    job.createdAt = row.createdAt := by
  obtain ⟨last, hlast, hsame⟩ := h j row hrow
  cases hlast.symm.trans hjob
  exact hsame.created

section
variable {cfg : Jobs.Settings} {quotas : QuotaSettings} {ok : Webhook.State → Webhook.Action → Prop}
  {s t : Webhook.State}

end

section
variable {f : CaseFold} {q status : Option String} {filter : Option JobStatus}

theorem hasNext_iff (pager : Pager) :
    pager.hasNext = true ↔ pager.offset + pager.limit < pager.total := by
  unfold Pager.hasNext Pager.to
  simp only [Bool.and_eq_true, Bool.not_eq_true', decide_eq_false_iff_not]
  omega

theorem next_eq {pager : Pager} {k : Nat} (hlimit : 0 < pager.limit)
    (hoffset : pager.offset = pager.limit * k) (h : pager.hasNext = true) :
    pager.next = pager.offset + pager.limit := by
  rw [hasNext_iff] at h
  unfold Pager.next Pager.last
  apply Nat.min_eq_right
  have hpages : k + 1 ≤ (pager.total - 1) / pager.limit := by
    rw [Nat.le_div_iff_mul_le hlimit, Nat.mul_comm, Nat.mul_succ, ← hoffset]
    omega
  calc pager.offset + pager.limit = (k + 1) * pager.limit := by
        rw [hoffset, Nat.mul_comm (k + 1), Nat.mul_succ]
    _ ≤ (pager.total - 1) / pager.limit * pager.limit := Nat.mul_le_mul_right _ hpages

/-- The ids that a request may find. -/
def listedJobs (f : CaseFold) (q : Option String) (filter : Option JobStatus) (s : Jobs.State) :
    List JobId :=
  listed PRJob.createdAt s.jobs s.nextId (jobKept f q filter)

def servedOf (f : CaseFold) (q : Option String) (filter : Option JobStatus)
    (r : Jobs.State × Jobs.State) : Request JobView :=
  ⟨(listedJobs f q filter r.1).length, (jobHistory f q filter r.2).map (jobView r.2.results)⟩

theorem listJobs_total {counted read : Jobs.State} {limit offset : Int}
    (hfilter : statusFilter status = some filter) :
    (listJobs f counted read limit offset q status).total = (listedJobs f q filter counted).length := by
  unfold listJobs listedJobs listed jobHistory
  rw [hfilter, List.length_map]

theorem listJobs_jobs {counted read : Jobs.State} (hfilter : statusFilter status = some filter)
    (offset : Nat) :
    (listJobs f counted read pageSize offset q status).jobs =
      page pageSize offset (servedOf f q filter (counted, read)).list := by
  unfold listJobs
  rw [hfilter]
  change (page pageSize (max 0 (offset : Int)).toNat _).map (jobView read.results) = _
  rw [Int.max_eq_right (Int.natCast_nonneg offset), Int.toNat_natCast]
  unfold page servedOf
  rw [List.map_take, List.map_drop]

theorem readAll_served (hfilter : statusFilter status = some filter) (k : Nat)
    (readings : List (Jobs.State × Jobs.State)) :
    (readAll f q status (pageSize * k) readings).map (List.map (·.jobs)) =
      browse pageSize (pageSize * k) (readings.map (servedOf f q filter)) := by
  induction readings generalizing k with
  | nil => rfl
  | cons r rest ih =>
    obtain ⟨counted, read⟩ := r
    have htotal : (listJobs f counted read pageSize (pageSize * k : Nat) q status).total =
        (listedJobs f q filter counted).length := listJobs_total hfilter
    have hjobs : (listJobs f counted read pageSize (pageSize * k : Nat) q status).jobs =
        page pageSize (pageSize * k) (servedOf f q filter (counted, read)).list :=
      listJobs_jobs hfilter (pageSize * k)
    unfold readAll
    dsimp only
    rw [List.map_cons, browse, ← hjobs]
    change _ = if (listedJobs f q filter counted).length ≤ pageSize * k + pageSize then _ else _
    rw [← htotal]
    split
    · rename_i hnext
      have hsize : 0 < pageSize := by decide
      rw [if_neg (Nat.not_le.mpr ((hasNext_iff _).mp hnext)), next_eq hsize rfl hnext]
      dsimp only
      rw [← Nat.mul_succ, ← ih, Option.map_map, Option.map_map]
      rfl
    · rename_i hlast
      rw [if_pos (Nat.not_lt.mp fun hmore => hlast ((hasNext_iff _).mpr hmore))]
      rfl

theorem listJobs_ids {counted read : Jobs.State} (hfilter : statusFilter status = some filter)
    (offset : Nat) :
    (listJobs f counted read pageSize offset q status).jobs.map (·.id) =
      page pageSize offset (listedJobs f q filter read) := by
  rw [listJobs_jobs hfilter, page, page, List.map_take, List.map_drop]
  unfold servedOf listedJobs listed jobHistory
  rw [List.map_map]
  rfl

end

section
variable {f : CaseFold} {q status : Option String} {filter : Option JobStatus}

theorem statusFilter_value (status : JobStatus) :
    statusFilter (some status.value) = some (some status) := by
  cases status <;> rfl

theorem listedJobs_length (s : Jobs.State) : (listedJobs f q filter s).length =
    (kept s.jobs s.nextId (jobKept f q filter)).length :=
  (List.length_map _).trans newestFirst_length

/-- While no job changes, a reader of the pages is served the matching jobs, each one once and the
newest first; and the counts of the header are the lengths of the lists that they head. -/
theorem history_agrees (f : CaseFold) (q : Option String) {status : Option String}
    {filter : Option JobStatus} (hfilter : statusFilter status = some filter) (s : Jobs.State) :
    (∃ n pages, readAll f q status 0 (List.replicate n (s, s)) = some pages ∧
      pages.flatMap (·.jobs) = (jobHistory f q filter s).map (jobView s.results)) ∧
    (jobHistory f q filter s).Pairwise (Newer PRJob.createdAt) ∧
    ((jobHistory f q filter s).map (·.1)).Nodup ∧
    (∀ job, job ∈ jobHistory f q filter s ↔ job.1 < s.nextId ∧ s.jobs job.1 = some job.2 ∧
      jobKept f q filter job.2 = true) ∧
    (∀ limit offset, (jobStats s).total = (listJobs f s s limit offset none none).total) ∧
    ∀ limit offset status, (jobStats s).of status =
      (listJobs f s s limit offset none (some status.value)).total := by
  have hserved : servedOf f q filter (s, s) =
      ⟨(servedOf f q filter (s, s)).list.length, (servedOf f q filter (s, s)).list⟩ := by
    unfold servedOf listedJobs listed
    dsimp only
    rw [List.length_map, List.length_map]
    rfl
  refine ⟨?_, List.pairwise_insertionSort _ _, listed_nodup, fun job => mem_newestFirst,
    fun limit offset => ?_, fun limit offset status => ?_⟩
  · have hread := readAll_served (f := f) (q := q) hfilter 0
      (List.replicate ((servedOf f q filter (s, s)).list.length + 1) (s, s))
    rw [Nat.mul_zero, List.map_replicate, hserved] at hread
    have henough : (servedOf f q filter (s, s)).list.length ≤
        0 + pageSize * ((servedOf f q filter (s, s)).list.length + 1) := by
      unfold pageSize
      omega
    obtain ⟨shown, hshown⟩ := Option.isSome_iff_exists.mp
      (browse_stable_isSome 0 henough (Nat.succ_pos _))
    obtain ⟨pages, hpages, rfl⟩ := Option.map_eq_some_iff.mp (hread.trans hshown)
    exact ⟨_, pages, hpages, browse_stable hshown⟩
  · rw [listJobs_total rfl, listedJobs_length, jobStats_total]
    rfl
  · rw [listJobs_total (statusFilter_value status), listedJobs_length, jobStats_of]
    rfl

end

theorem history_agrees_raced :
    (∃ n pages, readAll .ascii none none 0 (List.replicate n (Webhook.raced.jobs, Webhook.raced.jobs)) =
      some pages ∧ pages.flatMap (·.jobs) =
        (jobHistory .ascii none none Webhook.raced.jobs).map (jobView Webhook.raced.jobs.results)) ∧
    (jobStats Webhook.raced.jobs).of .pending = 2 :=
  ⟨(history_agrees .ascii none (rfl : statusFilter none = some none) Webhook.raced.jobs).1,
    ((history_agrees .ascii none (rfl : statusFilter none = some none)
      Webhook.raced.jobs).2.2.2.2.2 25 0 .pending).trans (by decide)⟩

end AutoPR.Api
