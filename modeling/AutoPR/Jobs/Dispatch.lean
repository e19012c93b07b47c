import Mathlib.Algebra.Order.BigOperators.Group.Finset
import AutoPR.Library.Returning
import AutoPR.Jobs.Batch

/-! When a pool of threads and a worker without one treat a batch alike. Handlings of
different jobs commute, so every schedule of the pool ends where the serial loop ends, as
long as every entry of the batch can be read: the pool leaves out an entry without a
job id, the serial loop stops at it, and nothing at all is handled where a field map is not
UTF-8. -/
namespace AutoPR.Jobs
open UnitOfWork Python Liveness Interleaving

variable {u : Unicode} {host : Host} {msg other : Message} {s : Shared} {task : Task}
  {messages : List Message} {batch : Batch} {requested : Int} {p : Pool}

def RawEntry.parse (entry : RawEntry) : Except Raised Message := do
  let fields ← decodeFields entry.fields
  pure ⟨entry.id, fields⟩

/-- The field map is UTF-8 and has a number as its job id. -/
def RawEntry.readable (u : Unicode) (entry : RawEntry) : Bool :=
  match decodeFields entry.fields with
  | .error _ => false
  | .ok fields => ((⟨entry.id, fields⟩ : Message).jobId u).isOk

theorem parseEntries_eq (entries : List (Option RawEntry)) :
    parseEntries entries = entries.reduceOption.mapM RawEntry.parse := by
  induction entries with
  | nil => rfl
  | cons entry rest ih =>
    cases entry with
    | none => exact ih
    | some entry =>
      rw [List.reduceOption_cons_of_some, List.mapM_cons, ← ih]
      simp only [parseEntries, RawEntry.parse, bind_assoc, pure_bind]

theorem parseXread_eq (streams : List (String × List (Option RawEntry))) :
    parseXread streams = (streams.flatMap (·.2)).reduceOption.mapM RawEntry.parse := by
  induction streams with
  | nil => rfl
  | cons stream rest ih =>
    obtain ⟨name, entries⟩ := stream
    rw [List.flatMap_cons, List.reduceOption_append, List.mapM_append, ← ih, ← parseEntries_eq]
    rfl

theorem Batch.messages_eq (batch : Batch) : batch.messages = batch.entries.mapM RawEntry.parse := by
  unfold Batch.messages Batch.entries
  rw [parseEntries_eq, parseXread_eq, List.reduceOption_append, List.mapM_append]

theorem parse_readable {entry : RawEntry} (h : entry.parse = .ok msg) :
    entry.readable u = (msg.jobId u).isOk := by
  obtain ⟨fields, hfields, h⟩ := ok_of_bind h
  cases h
  unfold RawEntry.readable
  rw [hfields]

theorem mapM_parse {entries : List RawEntry} (h : entries.mapM RawEntry.parse = .ok messages) :
    messages.length = entries.length ∧
      ((∀ msg ∈ messages, ∃ job, msg.jobId u = .ok job) ↔ ∀ entry ∈ entries, entry.readable u) := by
  have hall := mapM_ok h
  refine ⟨hall.length_eq.symm, ?_⟩
  clear h
  induction hall with
  | nil => simp
  | @cons entry msg entries messages hparse _ ih =>
    simp only [List.mem_cons, forall_eq_or_imp, ih]
    apply and_congr_left'
    rw [parse_readable hparse]
    cases msg.jobId u with
    | error exc => simp [Except.isOk, Except.toBool]
    | ok job => simp [Except.isOk, Except.toBool]

theorem mapM_parse_error {entries : List RawEntry} {exc : Raised}
    (h : entries.mapM RawEntry.parse = .error exc) : ∃ entry ∈ entries, entry.readable u = false := by
  obtain ⟨entry, hmem, herror⟩ := mapM_error h
  refine ⟨entry, hmem, ?_⟩
  unfold RawEntry.readable
  cases hfields : decodeFields entry.fields with
  | error exc' => rfl
  | ok fields =>
    unfold RawEntry.parse at herror
    rw [hfields] at herror
    cases herror

theorem WorkerMove.left_lt {cfg : Settings} {now : Nat} {row : Option PRJob} {pc : WorkerPc}
    {act : WorkerAct} {eff : WorkerEffect} (h : WorkerMove cfg now row pc act eff) :
    eff.pc.left < pc.left := by
  cases h with
  | dbError pc msg exc hpc => cases hpc <;> simp [WorkerPc.left]
  | crash pc msg hmsg => cases pc <;> simp [WorkerPc.left, WorkerPc.message] at hmsg ⊢
  | _ => simp [WorkerPc.left]

theorem workerStep_over {cfg : Settings} {now : Nat} {row : Option PRJob} {pc : WorkerPc}
    {act : WorkerAct} (h : pc.message = none) : workerStep cfg now row pc act = none := by
  cases pc with
  | idle => cases act <;> rfl
  | finished => cases act <;> rfl
  | crashed => cases act <;> rfl
  | _ => cases h

theorem advance_over (h : task.over = true) : host.advance msg s task = (s, task) := by
  cases task with
  | waiting => cases h
  | raised exc => rfl
  | handling pc =>
    unfold Host.advance
    cases msg.jobId host.unicode with
    | error exc => rfl
    | ok job =>
      dsimp only
      rw [workerStep_over (Option.isNone_iff_eq_none.mp h)]

theorem Task.left_over (h : task.over = true) : task.left = 0 := by
  cases task with
  | waiting => cases h
  | raised exc => rfl
  | handling pc => cases pc <;> first | rfl | cases h

theorem advance_left {job : Int} (hjob : msg.jobId host.unicode = .ok job) (h : task.over = false) :
    (host.advance msg s task).2.left < task.left := by
  cases task with
  | waiting =>
    unfold Host.advance
    rw [hjob]
    exact Nat.lt_succ_self 7
  | raised exc => cases h
  | handling pc =>
    unfold Host.advance
    rw [hjob]
    dsimp only
    have hsome : pc.message.isSome = true := by
      rw [← Option.not_isNone]
      exact congrArg not h
    obtain ⟨eff, heff⟩ := Option.isSome_iff_exists.mp
      ((host.surroundings msg).meets pc (s.jobs job) hsome)
    rw [heff]
    exact (workerStep_move heff).left_lt

theorem advance_returns {job : Int} (hjob : msg.jobId host.unicode = .ok job)
    (h : ∀ exc, task ≠ .raised exc) (exc : Raised) : (host.advance msg s task).2 ≠ .raised exc := by
  cases task with
  | waiting =>
    unfold Host.advance
    rw [hjob]
    exact Task.noConfusion
  | raised exc => exact absurd rfl (h exc)
  | handling pc =>
    unfold Host.advance
    rw [hjob]
    dsimp only
    split <;> exact Task.noConfusion

theorem advance_stopped {exc : Raised} (hjob : msg.jobId host.unicode = .error exc)
    (h : ∀ pc, task ≠ .handling pc) (pc : WorkerPc) : (host.advance msg s task).2 ≠ .handling pc := by
  cases task with
  | waiting =>
    unfold Host.advance
    rw [hjob]
    exact Task.noConfusion
  | raised exc => exact Task.noConfusion
  | handling pc => exact absurd rfl (h pc)

theorem Message.apart.symm (h : msg.apart u other) : other.apart u msg :=
  fun job hother hmsg => h job hmsg hother

theorem Shared.apply_comm {id id' : EntryId} {job job' : Int} {eff eff' : WorkerEffect}
    (h : job ≠ job') :
    (s.apply id job eff).apply id' job' eff' = (s.apply id' job' eff').apply id job eff := by
  apply Shared.ext
  · exact Table.write_comm _ h _ _
  · unfold Shared.apply
    dsimp only
    simp only [Table.write_of_ne _ _ h.symm, Table.write_of_ne _ _ h]
    exact Table.write_comm _ h _ _
  · unfold Shared.apply
    cases eff.ack <;> cases eff'.ack <;> simp [Finset.insert_comm]

theorem advance_shape (host : Host) (msg : Message) (task : Task) :
    (∃ next, ∀ s, host.advance msg s task = (s, next)) ∨
      ∃ job pc, msg.jobId host.unicode = .ok job ∧ task = .handling pc := by
  cases task with
  | raised exc => exact .inl ⟨.raised exc, fun s => rfl⟩
  | waiting =>
    unfold Host.advance
    cases msg.jobId host.unicode with
    | error exc => exact .inl ⟨_, fun s => rfl⟩
    | ok job => exact .inl ⟨_, fun s => rfl⟩
  | handling pc =>
    unfold Host.advance
    cases msg.jobId host.unicode with
    | error exc => exact .inl ⟨_, fun s => rfl⟩
    | ok job => exact .inr ⟨job, pc, rfl, rfl⟩

theorem advance_statement {job : Int} {pc : WorkerPc} (hjob : msg.jobId host.unicode = .ok job) :
    ∃ eff : WorkerEffect, ∀ t : Shared, t.jobs job = s.jobs job →
      host.advance msg t (.handling pc) = (t.apply msg.id job eff, .handling eff.pc) := by
  cases h : workerStep host.settings ((host.surroundings msg).next pc).1 (s.jobs job) pc
      ((host.surroundings msg).next pc).2 with
  | none =>
    refine ⟨{ pc }, fun t ht => ?_⟩
    unfold Host.advance
    rw [hjob]
    dsimp only
    rw [ht, h]
    simp [Shared.apply]
  | some eff =>
    refine ⟨eff, fun t ht => ?_⟩
    unfold Host.advance
    rw [hjob]
    dsimp only
    rw [ht, h]

theorem advance_comm {task' : Task} (h : msg.apart host.unicode other) :
    host.advance other (host.advance msg s task).1 task' =
        ((host.advance msg (host.advance other s task').1 task).1, (host.advance other s task').2) ∧
      (host.advance msg (host.advance other s task').1 task).2 = (host.advance msg s task).2 := by
  obtain ⟨next, hnext⟩ | ⟨job, pc, hjob, rfl⟩ := advance_shape host msg task
  · rw [hnext, hnext]
    exact ⟨rfl, rfl⟩
  obtain ⟨next, hnext⟩ | ⟨job', pc', hjob', rfl⟩ := advance_shape host other task'
  · rw [hnext, hnext]
    exact ⟨rfl, rfl⟩
  have hne : job ≠ job' := by
    rintro rfl
    exact h job hjob hjob'
  obtain ⟨eff, heff⟩ := @advance_statement host msg s job pc hjob
  obtain ⟨eff', heff'⟩ := @advance_statement host other s job' pc' hjob'
  have hrow : (s.apply msg.id job eff).jobs job' = s.jobs job' := Table.write_of_ne _ _ hne.symm
  have hrow' : (s.apply other.id job' eff').jobs job = s.jobs job := Table.write_of_ne _ _ hne
  rw [heff s rfl, heff' s rfl, heff' _ hrow, heff _ hrow', Shared.apply_comm hne]
  exact ⟨rfl, rfl⟩

theorem iterate_over {job : Int} (hjob : msg.jobId host.unicode = .ok job) (n : Nat)
    {x : Shared × Task} (h : x.2.left ≤ n) : ((host.proceed msg)^[n] x).2.over = true := by
  induction n generalizing x with
  | zero =>
    cases hover : x.2.over with
    | true => exact hover
    | false =>
      have hlt := @advance_left host msg x.1 x.2 job hjob hover
      omega
  | succ n ih =>
    rw [Function.iterate_succ_apply]
    apply ih
    unfold Host.proceed
    cases hover : x.2.over with
    | true =>
      rw [advance_over hover, Task.left_over hover]
      exact Nat.zero_le n
    | false =>
      have hlt := @advance_left host msg x.1 x.2 job hjob hover
      omega

theorem handleMessage_over {job : Int} (hjob : msg.jobId host.unicode = .ok job) :
    (host.handleMessage msg s).2.over = true :=
  iterate_over hjob _ (Nat.le_refl _)

theorem iterate_raised {x : Shared × Task} {exc : Raised} (n : Nat) (h : x.2 = .raised exc) :
    (host.proceed msg)^[n] x = x := by
  apply Function.iterate_fixed
  unfold Host.proceed
  rw [h]
  exact Prod.ext rfl h.symm

theorem handleMessage_raised {exc : Raised} (hjob : msg.jobId host.unicode = .error exc) :
    host.handleMessage msg s = (s, .raised exc) := by
  have hfirst : host.proceed msg (s, .waiting) = (s, .raised exc) := by
    unfold Host.proceed Host.advance
    rw [hjob]
  unfold Host.handleMessage
  rw [show Task.waiting.left = 7 + 1 from rfl, Function.iterate_succ_apply, hfirst]
  exact iterate_raised 7 rfl

theorem handleMessage_returns {job : Int} (hjob : msg.jobId host.unicode = .ok job) (exc : Raised) :
    (host.handleMessage msg s).2 ≠ .raised exc := by
  have hiterate : ∀ (n : Nat) (x : Shared × Task), (∀ exc, x.2 ≠ .raised exc) →
      ∀ exc, ((host.proceed msg)^[n] x).2 ≠ .raised exc := by
    intro n
    induction n with
    | zero => exact fun x hx => hx
    | succ n ih =>
      intro x hx
      rw [Function.iterate_succ_apply]
      exact ih _ (advance_returns hjob hx)
  exact hiterate _ _ (fun exc => Task.noConfusion) exc

def Host.move (host : Host) (messages : List Message) (i : Nat) (p : Pool) : Pool :=
  match messages[i]? with
  | none => p
  | some msg => p.put i (host.advance msg p.shared (p.tasks i))

theorem move_at {i : Nat} (h : messages[i]? = some msg) :
    host.move messages i p = p.put i (host.advance msg p.shared (p.tasks i)) := by
  unfold Host.move
  rw [h]

theorem move_beyond {i : Nat} (h : messages[i]? = none) : host.move messages i p = p := by
  unfold Host.move
  rw [h]

theorem apart_of_ne (h : messages.Pairwise (Message.apart u)) {i j : Nat} (hij : i ≠ j)
    (hi : messages[i]? = some msg) (hj : messages[j]? = some other) : msg.apart u other := by
  obtain ⟨hilt, rfl⟩ := List.getElem?_eq_some_iff.mp hi
  obtain ⟨hjlt, rfl⟩ := List.getElem?_eq_some_iff.mp hj
  rw [List.pairwise_iff_getElem] at h
  obtain hlt | hlt := Nat.lt_or_gt_of_ne hij
  · exact h i j hilt hjlt hlt
  · exact (h j i hjlt hilt hlt).symm

theorem move_comm (h : messages.Pairwise (Message.apart host.unicode)) (i j : Nat) :
    Function.Commute (host.move messages i) (host.move messages j) := by
  by_cases hij : i = j
  · rw [hij]
  intro p
  cases hi : messages[i]? with
  | none => rw [move_beyond hi, move_beyond hi]
  | some msg =>
    cases hj : messages[j]? with
    | none => rw [move_beyond hj, move_beyond hj]
    | some other =>
      obtain ⟨hfirst, hsecond⟩ :=
        @advance_comm host other msg p.shared (p.tasks j) (p.tasks i) (apart_of_ne h hij hi hj).symm
      rw [move_at hi, move_at hj, move_at hi, move_at hj]
      unfold Pool.put
      dsimp only
      rw [Function.update_of_ne hij, Function.update_of_ne (Ne.symm hij), hfirst, hsecond,
        Function.update_comm hij]

theorem put_self (p : Pool) (i : Nat) : p.put i (p.shared, p.tasks i) = p := by
  unfold Pool.put
  rw [Function.update_eq_self]

theorem move_task {i : Nat} (hi : messages[i]? = some msg) (j : Nat) :
    (host.move messages j p).tasks i = p.tasks i ∨
      (host.move messages j p).tasks i = (host.advance msg p.shared (p.tasks i)).2 := by
  by_cases hij : j = i
  · subst hij
    rw [move_at hi]
    exact .inr (Function.update_self ..)
  · left
    cases hj : messages[j]? with
    | none => rw [move_beyond hj]
    | some other =>
      rw [move_at hj]
      exact Function.update_of_ne (Ne.symm hij) _ _

theorem run_task {P : Task → Prop} {i : Nat} {schedule : List Nat} (hi : messages[i]? = some msg)
    (hstep : ∀ s task, P task → P (host.advance msg s task).2) (h : P (p.tasks i)) :
    P ((run (host.move messages) schedule p).tasks i) := by
  induction schedule generalizing p with
  | nil => exact h
  | cons j rest ih =>
    rw [run_cons]
    apply ih
    obtain hsame | hnext := @move_task host msg messages p i hi j
    · rw [hsame]
      exact h
    · rw [hnext]
      exact hstep _ _ h

theorem Pool.done_iff {count : Nat} : p.done count = true ↔ ∀ i < count, (p.tasks i).over = true := by
  simp [Pool.done]

theorem done_atRest (h : p.done messages.length = true) : AtRest (host.move messages) p := by
  intro i
  cases hi : messages[i]? with
  | none => exact move_beyond hi
  | some msg =>
    obtain ⟨hlt, -⟩ := List.getElem?_eq_some_iff.mp hi
    rw [move_at hi, advance_over (Pool.done_iff.mp h i hlt)]
    exact put_self p i

theorem run_replicate {i : Nat} (hi : messages[i]? = some msg) (n : Nat) :
    run (host.move messages) (List.replicate n i) p =
      p.put i ((host.proceed msg)^[n] (p.shared, p.tasks i)) := by
  induction n generalizing p with
  | zero => exact (put_self p i).symm
  | succ n ih =>
    rw [List.replicate_succ, run_cons, move_at hi, ih, Function.iterate_succ_apply]
    unfold Pool.put
    dsimp only
    rw [Function.update_self, Function.update_idem]
    rfl

def Host.handleAll (host : Host) (messages : List Message) (s : Shared) : Shared :=
  messages.foldl (fun s msg => (host.handleMessage msg s).1) s

def inTurn (count : Nat) : List Nat := (List.range count).flatMap (List.replicate Task.waiting.left)

theorem run_inTurn (hjobs : ∀ msg ∈ messages, ∃ job, msg.jobId host.unicode = .ok job) {k : Nat}
    (hk : k ≤ messages.length) (s : Shared) :
    (run (host.move messages) (inTurn k) (.start s)).shared = host.handleAll (messages.take k) s ∧
    (∀ i < k, ((run (host.move messages) (inTurn k) (.start s)).tasks i).over = true) ∧
    ∀ i, k ≤ i → (run (host.move messages) (inTurn k) (.start s)).tasks i = .waiting := by
  induction k with
  | zero => exact ⟨rfl, fun i hi => absurd hi (Nat.not_lt_zero i), fun i hi => rfl⟩
  | succ k ih =>
    obtain ⟨hshared, hover, hwaiting⟩ := ih (Nat.le_of_succ_le hk)
    have hmsg : messages[k]? = some messages[k] := List.getElem?_eq_getElem hk
    have hturn : inTurn (k + 1) = inTurn k ++ List.replicate Task.waiting.left k := by
      unfold inTurn
      rw [List.range_succ, List.flatMap_append, List.flatMap_singleton]
    have hcall : host.handleMessage messages[k] (host.handleAll (messages.take k) s) =
        (host.proceed messages[k])^[Task.waiting.left]
          (host.handleAll (messages.take k) s, .waiting) := rfl
    rw [hturn, run_append, run_replicate hmsg, hshared, hwaiting k (Nat.le_refl k), ← hcall]
    refine ⟨?_, fun i hi => ?_, fun i hi => ?_⟩
    · rw [List.take_add_one, hmsg]
      unfold Host.handleAll Pool.put
      rw [List.foldl_append]
      rfl
    · unfold Pool.put
      dsimp only
      by_cases hik : i = k
      · subst hik
        obtain ⟨job, hjob⟩ := hjobs _ (List.getElem_mem hk)
        rw [Function.update_self]
        exact handleMessage_over hjob
      · rw [Function.update_of_ne hik]
        exact hover i (by omega)
    · unfold Pool.put
      dsimp only
      rw [Function.update_of_ne (by omega)]
      exact hwaiting i (by omega)

theorem serial_call {job : Int} (hjob : msg.jobId host.unicode = .ok job) {handled i : Nat} :
    host.cycleStep requested i (.serial (msg :: messages) handled s) =
      some (.serial messages (handled + 1) (host.handleMessage msg s).1) := by
  have hreturned := @handleMessage_returns host msg s job hjob
  unfold Host.cycleStep
  dsimp only
  cases hcall : host.handleMessage msg s with
  | mk after task =>
    rw [hcall] at hreturned
    cases task with
    | raised exc => exact absurd rfl (hreturned exc)
    | waiting => rfl
    | handling pc => rfl

theorem serial_raise {exc : Raised} (hjob : msg.jobId host.unicode = .error exc) {handled i : Nat} :
    host.cycleStep requested i (.serial (msg :: messages) handled s) =
      some (.ended (.error exc) s) := by
  unfold Host.cycleStep
  dsimp only
  rw [handleMessage_raised hjob]

theorem serial_ends (hjobs : ∀ msg ∈ messages, ∃ job, msg.jobId host.unicode = .ok job)
    (handled : Nat) (s : Shared) :
    host.EndsIn requested (.serial messages handled s) (.ok (handled + messages.length))
      (host.handleAll messages s) := by
  induction messages generalizing handled s with
  | nil =>
    apply Inevitable.later fun _ => ⟨_, 0, rfl⟩
    rintro _ c ⟨i, hc⟩
    cases hc
    exact .now rfl
  | cons msg rest ih =>
    obtain ⟨job, hjob⟩ := hjobs msg List.mem_cons_self
    have hrest := ih (fun other hmem => hjobs other (List.mem_cons_of_mem msg hmem)) (handled + 1)
      (host.handleMessage msg s).1
    apply Inevitable.later fun _ => ⟨_, 0, serial_call hjob⟩
    rintro _ c ⟨i, hc⟩
    rw [serial_call hjob] at hc
    cases hc
    have hcount : handled + (msg :: rest).length = handled + 1 + rest.length := by
      rw [List.length_cons]
      omega
    rw [hcount]
    exact hrest

theorem poolStep_move {c i : Nat} {q : Pool} (h : host.poolStep c messages i p = some q) :
    ∃ msg, messages[i]? = some msg ∧ (p.tasks i).over = false ∧ q = host.move messages i p := by
  unfold Host.poolStep at h
  cases hi : messages[i]? with
  | none =>
    rw [hi] at h
    cases h
  | some msg =>
    rw [hi] at h
    dsimp only at h
    split at h
    · cases h
    · rename_i hfree
      cases h
      exact ⟨msg, rfl, Bool.eq_false_iff.mpr fun hover => hfree (.inl hover), (move_at hi).symm⟩

theorem poolStep_exists {c : Nat} (hc : 1 ≤ c) (h : p.done messages.length = false) :
    ∃ i q, host.poolStep c messages i p = some q := by
  have hopen : ∃ i, i < messages.length ∧ (p.tasks i).over = false := by
    by_contra hnone
    push Not at hnone
    have hdone : p.done messages.length = true := by
      rw [Pool.done_iff]
      intro i hi
      simpa using hnone i hi
    rw [hdone] at h
    cases h
  by_cases hbusy : ∃ i, i < messages.length ∧ (p.tasks i).over = false ∧ p.tasks i ≠ .waiting
  · obtain ⟨i, hi, hover, hstarted⟩ := hbusy
    refine ⟨i, p.put i (host.advance messages[i] p.shared (p.tasks i)), ?_⟩
    unfold Host.poolStep
    rw [List.getElem?_eq_getElem hi]
    exact if_neg (by simp [hover, hstarted])
  · push Not at hbusy
    have hidle : p.busy messages.length = 0 := by
      unfold Pool.busy
      rw [List.countP_eq_zero]
      intro i hi
      cases hover : (p.tasks i).over with
      | true => simp
      | false => simp [hbusy i (List.mem_range.mp hi) hover]
    let first := Nat.find hopen
    obtain ⟨hi, hover⟩ : first < messages.length ∧ (p.tasks first).over = false := Nat.find_spec hopen
    have hwaiting : p.tasks first = .waiting := hbusy first hi hover
    have hstart : p.mayStart c messages.length first := by
      refine ⟨by omega, fun k hk hkwaiting => ?_⟩
      apply Nat.find_min hopen hk
      rw [hkwaiting]
      exact ⟨hk.trans hi, rfl⟩
    refine ⟨first, p.put first (host.advance messages[first] p.shared (p.tasks first)), ?_⟩
    unfold Host.poolStep
    rw [List.getElem?_eq_getElem hi]
    exact if_neg (by simp [hover, hstart])

def Cycle.left : Cycle → Nat
  | .pooled messages p => 1 + ∑ i ∈ Finset.range messages.length, (p.tasks i).left
  | .serial _ _ _ | .ended _ _ => 0

theorem pool_left {i : Nat} {job : Int} (hi : messages[i]? = some msg)
    (hjob : msg.jobId host.unicode = .ok job) (hover : (p.tasks i).over = false) :
    (Cycle.pooled messages (host.move messages i p)).left < (Cycle.pooled messages p).left := by
  obtain ⟨hlt, -⟩ := List.getElem?_eq_some_iff.mp hi
  have hless := @advance_left host msg p.shared _ job hjob hover
  rw [move_at hi]
  unfold Cycle.left Pool.put
  dsimp only
  apply Nat.add_lt_add_left
  apply Finset.sum_lt_sum
  · intro k _
    by_cases hk : k = i
    · subst hk
      rw [Function.update_self]
      exact hless.le
    · rw [Function.update_of_ne hk]
  · refine ⟨i, Finset.mem_range.mpr hlt, ?_⟩
    rw [Function.update_self]
    exact hless

theorem handled_eq {count : Nat} (h : p.done count = true)
    (hreturned : ∀ i < count, ∀ exc, p.tasks i ≠ .raised exc) : p.handled count = count := by
  unfold Pool.handled
  have hall : (List.range count).countP (fun i => (p.tasks i).returned) = (List.range count).length := by
    rw [List.countP_eq_length]
    intro i hi
    have hlt := List.mem_range.mp hi
    have hover := Pool.done_iff.mp h i hlt
    cases htask : p.tasks i with
    | waiting =>
      rw [htask] at hover
      cases hover
    | raised exc => exact absurd htask (hreturned i hlt exc)
    | handling pc =>
      rw [htask] at hover
      exact hover
  rw [hall, List.length_range]

theorem pool_ends (hjobs : ∀ msg ∈ messages, ∃ job, msg.jobId host.unicode = .ok job)
    (hapart : messages.Pairwise (Message.apart host.unicode)) (s : Shared) :
    host.EndsIn requested (.pooled messages (.start s)) (.ok messages.length)
      (host.handleAll messages s) := by
  obtain ⟨hserial, hserialOver, -⟩ := run_inTurn hjobs (Nat.le_refl messages.length) s
  rw [List.take_length] at hserial
  have hserialRest := @done_atRest host messages _ (Pool.done_iff.mpr hserialOver)
  have hjob : ∀ {i : Nat} {msg : Message}, messages[i]? = some msg →
      ∃ job, msg.jobId host.unicode = .ok job :=
    fun hi => hjobs _ (List.mem_of_getElem? hi)
  apply Inevitable.of_rank (I := fun c => c = .ended (.ok messages.length) (host.handleAll messages s) ∨
    ∃ schedule, c = .pooled messages (run (host.move messages) schedule (.start s))) Cycle.left
  · rintro c (hc | ⟨schedule, rfl⟩)
    · exact .inl hc
    right
    intro _
    cases hdone : (run (host.move messages) schedule (Pool.start s)).done messages.length with
    | true => exact ⟨_, 0, if_pos hdone⟩
    | false =>
      have hpositive : 1 ≤ concurrency requested := by
        unfold concurrency
        omega
      obtain ⟨i, q, hq⟩ := poolStep_exists hpositive hdone
      refine ⟨.pooled messages q, i, ?_⟩
      unfold Host.cycleStep
      dsimp only
      rw [hdone, hq]
      rfl
  · rintro _ c d (rfl | ⟨schedule, rfl⟩) ⟨i, hd⟩
    · cases hd
    unfold Host.cycleStep at hd
    dsimp only at hd
    split at hd
    · rename_i hdone
      cases hd
      have hsame := rest_unique (move_comm hapart) (done_atRest hdone) hserialRest
      have hreturned : ∀ i < messages.length, ∀ exc,
          (run (host.move messages) schedule (Pool.start s)).tasks i ≠ .raised exc := by
        intro i hi
        obtain ⟨job, hjob⟩ := hjob (List.getElem?_eq_getElem hi)
        exact run_task (P := fun task => ∀ exc, task ≠ .raised exc) (List.getElem?_eq_getElem hi)
          (fun s task htask => advance_returns hjob htask) fun exc => Task.noConfusion
      constructor
      · left
        rw [handled_eq hdone hreturned, hsame, hserial]
      · exact Nat.lt_of_lt_of_le Nat.zero_lt_one (Nat.le_add_right 1 _)
    · obtain ⟨q, hq, rfl⟩ := Option.map_eq_some_iff.mp hd
      obtain ⟨msg, hi, hover, rfl⟩ := poolStep_move hq
      obtain ⟨job, hjob⟩ := hjob hi
      refine ⟨.inr ⟨schedule ++ [i], ?_⟩, pool_left hi hjob hover⟩
      rw [run_append]
      rfl
  · exact .inr ⟨[], rfl⟩

def Cycle.Marred (u : Unicode) (count : Nat) : Cycle → Prop
  | .serial rest _ _ => ∃ msg ∈ rest, ∃ exc, msg.jobId u = .error exc
  | .pooled messages p => messages.length = count ∧ ∃ i msg exc, messages[i]? = some msg ∧
      msg.jobId u = .error exc ∧ ∀ pc, p.tasks i ≠ .handling pc
  | .ended answer _ => ∀ handled, answer = .ok handled → handled < count

theorem Cycle.Marred.step {count i : Nat} {c d : Cycle} (h : c.Marred host.unicode count)
    (hstep : host.cycleStep requested i c = some d) : d.Marred host.unicode count := by
  cases c with
  | ended answer s => cases hstep
  | serial rest handled s =>
    cases rest with
    | nil =>
      obtain ⟨msg, hmem, -⟩ := h
      cases hmem
    | cons msg rest =>
      cases hjob : msg.jobId host.unicode with
      | error exc =>
        rw [serial_raise hjob] at hstep
        cases hstep
        exact fun handled hanswer => nomatch hanswer
      | ok job =>
        rw [serial_call hjob] at hstep
        cases hstep
        obtain ⟨bad, hmem, exc, hbad⟩ := h
        obtain rfl | hmem := List.mem_cons.mp hmem
        · rw [hjob] at hbad
          cases hbad
        · exact ⟨bad, hmem, exc, hbad⟩
  | pooled messages p =>
    obtain ⟨hlength, k, msg, exc, hk, hjob, htask⟩ := h
    unfold Host.cycleStep at hstep
    dsimp only at hstep
    split at hstep
    · cases hstep
      intro handled hanswer
      cases hanswer
      have hmem : k ∈ List.range messages.length :=
        List.mem_range.mpr (List.getElem?_eq_some_iff.mp hk).1
      have hout : (p.tasks k).returned = false := by
        cases hpc : p.tasks k with
        | waiting => rfl
        | raised exc => rfl
        | handling pc => exact absurd hpc (htask pc)
      rw [← hlength]
      unfold Pool.handled
      calc (List.range messages.length).countP (fun i => (p.tasks i).returned)
          < (List.range messages.length).length := List.countP_lt_length_iff.mpr ⟨k, hmem, hout⟩
        _ = messages.length := List.length_range
    · obtain ⟨q, hq, rfl⟩ := Option.map_eq_some_iff.mp hstep
      obtain ⟨-, -, -, rfl⟩ := poolStep_move hq
      refine ⟨hlength, k, msg, exc, hk, hjob, ?_⟩
      obtain hsame | hnext := @move_task host msg messages p k hk i
      · rw [hsame]
        exact htask
      · rw [hnext]
        exact advance_stopped hjob htask

theorem runOnce_marred {entry : RawEntry} (hmem : entry ∈ batch.entries)
    (hentry : entry.readable u = false) :
    (runOnce requested batch s).Marred u batch.entries.length := by
  have hparse := batch.messages_eq
  unfold runOnce
  cases hmessages : batch.messages with
  | error exc => exact fun handled hanswer => nomatch hanswer
  | ok messages =>
    rw [hmessages] at hparse
    obtain ⟨hlength, hread⟩ := @mapM_parse u _ _ hparse.symm
    have hbad : ∃ msg ∈ messages, ∃ exc, msg.jobId u = .error exc := by
      by_contra hnone
      have hall : ∀ msg ∈ messages, ∃ job, msg.jobId u = .ok job := by
        intro msg hmsg
        cases hjob : msg.jobId u with
        | ok job => exact ⟨job, rfl⟩
        | error exc => exact absurd ⟨msg, hmsg, exc, hjob⟩ hnone
      have hreadable := hread.mp hall entry hmem
      rw [hentry] at hreadable
      cases hreadable
    obtain ⟨bad, hbadmem, exc, hjob⟩ := hbad
    cases messages with
    | nil => cases hbadmem
    | cons msg rest =>
      dsimp only
      split
      · exact ⟨bad, hbadmem, exc, hjob⟩
      · obtain ⟨i, hi⟩ := List.getElem?_of_mem hbadmem
        exact ⟨hlength, i, bad, exc, hi, hjob, fun pc => Task.noConfusion⟩

theorem readable_of_ends {after : Shared}
    (h : host.EndsIn requested (runOnce requested batch s) (.ok batch.entries.length) after) :
    ∀ entry ∈ batch.entries, entry.readable host.unicode = true := by
  intro entry hmem
  by_contra hentry
  have hmarred := @runOnce_marred host.unicode s batch requested entry hmem
    (Bool.eq_false_iff.mpr hentry)
  obtain ⟨c, hc, rfl⟩ := Inevitable.reaches () (fun _ c d hc ⟨i, hd⟩ => hc.step hd) h hmarred
  exact absurd (hc _ rfl) (Nat.lt_irrefl _)

theorem runOnce_ends (hdistinct : batch.distinct host.unicode)
    (h : ∀ entry ∈ batch.entries, entry.readable host.unicode = true) {messages : List Message}
    (hmessages : batch.messages = .ok messages) :
    host.EndsIn requested (runOnce requested batch s) (.ok batch.entries.length)
      (host.handleAll messages s) := by
  have hparse := batch.messages_eq
  rw [hmessages] at hparse
  obtain ⟨hlength, hread⟩ := @mapM_parse host.unicode _ _ hparse.symm
  have hjobs := hread.mpr h
  rw [← hlength]
  unfold runOnce
  rw [hmessages]
  cases messages with
  | nil => exact .now rfl
  | cons msg rest =>
    dsimp only
    split
    · have hserial := @serial_ends host _ requested hjobs 0 s
      rw [Nat.zero_add] at hserial
      exact hserial
    · exact pool_ends hjobs (hdistinct _ hmessages) s

theorem serves_of_readable (hdistinct : batch.distinct host.unicode)
    (h : ∀ entry ∈ batch.entries, entry.readable host.unicode = true) :
    host.Serves requested batch s := by
  cases hmessages : batch.messages with
  | error exc =>
    have hparse := batch.messages_eq
    rw [hmessages] at hparse
    obtain ⟨entry, hmem, hentry⟩ := @mapM_parse_error host.unicode _ _ hparse.symm
    rw [h entry hmem] at hentry
    cases hentry
  | ok messages =>
    exact ⟨_, _, runOnce_ends hdistinct h hmessages, runOnce_ends hdistinct h hmessages⟩

/-- For entries of different jobs: the cycle handles the whole batch and leaves what a worker
without a pool leaves, if and only if every field map is UTF-8 and names its job by a
number. -/
theorem serves_iff (hdistinct : batch.distinct host.unicode) :
    host.Serves requested batch s ↔
      ∀ entry ∈ batch.entries, entry.readable host.unicode = true := by
  constructor
  · rintro ⟨_, _, -, hends⟩
    exact readable_of_ends hends
  · exact serves_of_readable hdistinct

/-- A job that was published and not started. -/
def PRJob.waiting : PRJob := { PRPayload.sample.newJob .small 0 with status := .queued }

def Shared.sample : Shared where
  jobs := fun job => if job = 1 ∨ job = 2 then some .waiting else none
  results := fun _ => none
  acked := ∅

def Host.sample : Host where
  unicode := .ascii
  settings := .small
  surroundings _ := .calm _ 1 fun _ => .ok "done"

def RawEntry.ofJob (id : EntryId) (job : String) : RawEntry :=
  ⟨id, [(.bytes "job_id".toUTF8, .bytes job.toUTF8)]⟩

/-- A reclaimed entry and a new one. -/
def Batch.pair : Batch where
  reclaimed := [some (.ofJob 5 "1")]
  fresh := [("jobs", [some (.ofJob 8 "2")])]

/-- The reclaimed entry has lost its fields. -/
def Batch.unlabelled : Batch where
  reclaimed := [some ⟨5, []⟩]
  fresh := [("jobs", [some (.ofJob 8 "2")])]

theorem pair_distinct : Batch.pair.distinct .ascii := by
  have hmessages : Batch.pair.messages = .ok [⟨5, [("job_id", "1")]⟩, ⟨8, [("job_id", "2")]⟩] := by
    decide
  have hfirst : (⟨5, [("job_id", "1")]⟩ : Message).jobId .ascii = .ok 1 := by decide
  have hsecond : (⟨8, [("job_id", "2")]⟩ : Message).jobId .ascii = .ok 2 := by decide
  intro messages h
  rw [hmessages] at h
  cases h
  apply List.pairwise_pair.mpr
  intro job hjob hjob'
  rw [hfirst] at hjob
  rw [hsecond] at hjob'
  cases hjob
  cases hjob'

theorem serves_iff_pair : Host.sample.Serves 4 .pair .sample ↔
    ∀ entry ∈ Batch.pair.entries, entry.readable .ascii = true :=
  serves_iff pair_distinct

theorem unlabelled_messages :
    Batch.unlabelled.messages = .ok [⟨5, []⟩, ⟨8, [("job_id", "2")]⟩] := by
  decide

/-- Without a pool the first entry ends the cycle, and the second one is not handled. -/
theorem unlabelled_starves : Batch.unlabelled.distinct .ascii ∧
    Host.sample.EndsIn 1 (runOnce 1 .unlabelled .sample) (.error .keyError) .sample ∧
    ¬ Host.sample.Serves 1 .unlabelled .sample := by
  have hfirst : (⟨5, []⟩ : Message).jobId .ascii = .error .keyError := by decide
  refine ⟨?_, ?_, ?_⟩
  · intro messages h
    rw [unlabelled_messages] at h
    cases h
    apply List.pairwise_pair.mpr
    intro job hjob
    rw [hfirst] at hjob
    cases hjob
  · have hserial : runOnce 1 .unlabelled .sample =
        .serial [⟨5, []⟩, ⟨8, [("job_id", "2")]⟩] 0 .sample := by
      unfold runOnce
      rw [unlabelled_messages]
      rfl
    rw [hserial]
    apply Inevitable.later fun _ => ⟨_, 0, serial_raise hfirst⟩
    rintro _ c ⟨i, hc⟩
    rw [serial_raise hfirst] at hc
    cases hc
    exact .now rfl
  · rintro ⟨_, _, -, hends⟩
    have hread := readable_of_ends hends ⟨5, []⟩ List.mem_cons_self
    cases hread

end AutoPR.Jobs
