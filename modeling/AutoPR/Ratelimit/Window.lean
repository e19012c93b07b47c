import Mathlib.Algebra.Order.Floor.Ring
import Mathlib.Data.List.Induction
import Mathlib.Data.Rat.Floor
import Mathlib.Tactic.Linarith

/-! The fixed-window limiter, in exact arithmetic. A window starts with the first request
after the one before it has elapsed, so the windows of a key are at least one length apart
and an interval of that length meets two of them at most. -/
namespace AutoPR.Ratelimit

structure Window (K : Type*) where
  start : K
  count : ℕ

structure FixedWindowRateLimiter (K : Type*) where
  limit : ℕ
  windowS : K

structure Answer where
  allowed : Bool
  retryAfter : ℤ
deriving DecidableEq

structure Call (κ K : Type*) where
  key : κ
  time : K

section
variable {κ K : Type*} [DecidableEq κ] [Field K] [LinearOrder K] [FloorRing K]

/-- `int(x)`, towards zero. -/
def toInt (x : K) : ℤ := if 0 ≤ x then ⌊x⌋ else ⌈x⌉

def FixedWindowRateLimiter.allow (limiter : FixedWindowRateLimiter K)
    (buckets : κ → Option (Window K)) (key : κ) (t : K) : Answer × (κ → Option (Window K)) :=
  match buckets key with
  | none => (⟨true, 0⟩, Function.update buckets key (some ⟨t, 1⟩))
  | some w =>
      if limiter.windowS ≤ t - w.start then
        (⟨true, 0⟩, Function.update buckets key (some ⟨t, 1⟩))
      else if w.count < limiter.limit then
        (⟨true, 0⟩, Function.update buckets key (some { w with count := w.count + 1 }))
      else (⟨false, toInt (limiter.windowS - (t - w.start)) + 1⟩, buckets)

end

/-- A request that was answered with leave, and the start of the window that it falls in. -/
structure Admission (κ K : Type*) where
  key : κ
  time : K
  start : K

/-- What the calls so far have left and what they were answered, newest first. The windows are
those of the requests' times, whatever the limiter keeps and answers. -/
structure Trace (κ K : Type*) where
  buckets : κ → Option (Window K) := fun _ => none
  windows : κ → Option K := fun _ => none
  answers : List (κ × Answer) := []
  admitted : List (Admission κ K) := []

section
variable {κ K : Type*} [DecidableEq κ] [Field K] [LinearOrder K] [FloorRing K]

/-- The start of the window of a request, after the start of the one before: a window lasts its
length, and the next request starts another. -/
def windowOf (windowS : K) (last : Option K) (t : K) : K :=
  match last with
  | none => t
  | some start => if windowS ≤ t - start then t else start

def Trace.call (limiter : FixedWindowRateLimiter K) (s : Trace κ K) (c : Call κ K) : Trace κ K :=
  let served := limiter.allow s.buckets c.key c.time
  let start := windowOf limiter.windowS (s.windows c.key) c.time
  { buckets := served.2
    windows := Function.update s.windows c.key (some start)
    answers := (c.key, served.1) :: s.answers
    admitted :=
      if served.1.allowed then ⟨c.key, c.time, start⟩ :: s.admitted else s.admitted }

def Trace.run (limiter : FixedWindowRateLimiter K) (calls : List (Call κ K)) : Trace κ K :=
  calls.foldl (Trace.call limiter) {}

/-- The requests of the key that one of its windows has admitted. -/
def Trace.used (s : Trace κ K) (key : κ) (start : K) : ℕ :=
  s.admitted.countP fun e => e.key = key ∧ e.start = start

/-- The requests of the key that were admitted between two times. -/
def Trace.admittedWithin (s : Trace κ K) (key : κ) (first last : K) : ℕ :=
  s.admitted.countP fun e => e.key = key ∧ first ≤ e.time ∧ e.time ≤ last

inductive Served (limiter : FixedWindowRateLimiter K) (old : Option (Window K)) (t : K) :
    Answer → Option (Window K) → Prop
  | opened (hold : ∀ w, old = some w → limiter.windowS ≤ t - w.start) :
      Served limiter old t ⟨true, 0⟩ (some ⟨t, 1⟩)
  | counted (w) (hold : old = some w) (hopen : t - w.start < limiter.windowS)
      (hroom : w.count < limiter.limit) :
      Served limiter old t ⟨true, 0⟩ (some { w with count := w.count + 1 })
  | refused (w) (hold : old = some w) (hopen : t - w.start < limiter.windowS)
      (hfull : limiter.limit ≤ w.count) :
      Served limiter old t ⟨false, toInt (limiter.windowS - (t - w.start)) + 1⟩ (some w)

variable {limiter : FixedWindowRateLimiter K} {buckets : κ → Option (Window K)} {key other : κ}
  {t : K} {s : Trace κ K} {c : Call κ K} {calls : List (Call κ K)}

theorem allow_served (limiter : FixedWindowRateLimiter K) (buckets : κ → Option (Window K))
    (key : κ) (t : K) :
    Served limiter (buckets key) t (limiter.allow buckets key t).1
      ((limiter.allow buckets key t).2 key) := by
  unfold FixedWindowRateLimiter.allow
  cases hold : buckets key with
  | none =>
    simp only [Function.update_self]
    exact .opened fun w hw => by cases hw
  | some w =>
    dsimp only
    split
    · rename_i helapsed
      simp only [Function.update_self]
      apply Served.opened
      intro w' hw'
      cases hw'
      exact helapsed
    · rename_i hopen
      split
      · rename_i hroom
        simp only [Function.update_self]
        exact .counted w rfl (not_le.mp hopen) hroom
      · rename_i hfull
        dsimp only
        rw [hold]
        exact .refused w rfl (not_le.mp hopen) (not_lt.mp hfull)

theorem allow_other (h : other ≠ key) : (limiter.allow buckets key t).2 other = buckets other := by
  unfold FixedWindowRateLimiter.allow
  split
  · exact Function.update_of_ne h _ _
  · split
    · exact Function.update_of_ne h _ _
    · split
      · exact Function.update_of_ne h _ _
      · rfl

theorem allow_congr {buckets' : κ → Option (Window K)} (h : buckets key = buckets' key) :
    (limiter.allow buckets key t).1 = (limiter.allow buckets' key t).1 ∧
      (limiter.allow buckets key t).2 key = (limiter.allow buckets' key t).2 key := by
  unfold FixedWindowRateLimiter.allow
  rw [← h]
  cases hold : buckets key with
  | none => simp
  | some w =>
    dsimp only
    split
    · simp
    · split
      · simp
      · exact ⟨rfl, h⟩

@[simp] theorem call_buckets : (s.call limiter c).buckets = (limiter.allow s.buckets c.key c.time).2 :=
  rfl

@[simp] theorem run_nil : Trace.run limiter ([] : List (Call κ K)) = {} := rfl

theorem run_snoc : Trace.run limiter (calls ++ [c]) = (Trace.run limiter calls).call limiter c := by
  unfold Trace.run
  rw [List.foldl_append]
  rfl

theorem run_started {w : Window K} (h : (Trace.run limiter calls).buckets key = some w) :
    ∃ c ∈ calls, c.time = w.start := by
  induction calls using List.reverseRecOn generalizing w with
  | nil => cases h
  | append_singleton calls c ih =>
    rw [run_snoc, call_buckets] at h
    by_cases hkey : key = c.key
    · subst hkey
      have hserved := allow_served limiter (Trace.run limiter calls).buckets c.key c.time
      rw [h] at hserved
      generalize (limiter.allow (Trace.run limiter calls).buckets c.key c.time).1 = answer at hserved
      cases hserved with
      | opened hold => exact ⟨c, by simp, rfl⟩
      | counted w hold | refused w hold =>
        obtain ⟨c', hmem, htime⟩ := ih hold
        exact ⟨c', List.mem_append_left _ hmem, htime⟩
    · rw [allow_other hkey] at h
      obtain ⟨c', hmem, htime⟩ := ih h
      exact ⟨c', List.mem_append_left _ hmem, htime⟩

theorem allow_elapsed {w : Window K} (hw : buckets key = some w)
    (h : limiter.windowS ≤ t - w.start) : (limiter.allow buckets key t).1.allowed = true := by
  unfold FixedWindowRateLimiter.allow
  rw [hw]
  dsimp only
  rw [if_pos h]

theorem run_filter_buckets :
    (Trace.run limiter (calls.filter fun c => c.key = key)).buckets key =
      (Trace.run limiter calls).buckets key := by
  induction calls using List.reverseRecOn with
  | nil => rfl
  | append_singleton calls c ih =>
    rw [List.filter_append, run_snoc, call_buckets]
    by_cases hkey : c.key = key
    · subst hkey
      rw [List.filter_cons_of_pos (by simp), List.filter_nil, run_snoc, call_buckets]
      exact (allow_congr ih).2
    · rw [List.filter_cons_of_neg (by simpa using hkey), List.filter_nil, List.append_nil, ih,
        allow_other (Ne.symm hkey)]

theorem run_filter_answers :
    (Trace.run limiter (calls.filter fun c => c.key = key)).answers =
      (Trace.run limiter calls).answers.filter fun a => a.1 = key := by
  induction calls using List.reverseRecOn with
  | nil => rfl
  | append_singleton calls c ih =>
    rw [List.filter_append, run_snoc]
    unfold Trace.call
    by_cases hkey : c.key = key
    · subst hkey
      rw [List.filter_cons_of_pos (by simp), List.filter_nil, run_snoc]
      unfold Trace.call
      dsimp only
      rw [ih, List.filter_cons_of_pos (by simp), (allow_congr run_filter_buckets).1]
    · rw [List.filter_cons_of_neg (by simpa using hkey), List.filter_nil, List.append_nil]
      dsimp only
      rw [ih, List.filter_cons_of_neg (by simpa using hkey)]

theorem run_other {between : List (Call κ K)} (h : ∀ c ∈ between, c.key ≠ key) :
    (Trace.run limiter (calls ++ between)).buckets key = (Trace.run limiter calls).buckets key := by
  have hnone : (between.filter fun c => c.key = key) = [] := by
    rw [List.filter_eq_nil_iff]
    intro c hc
    simpa using h c hc
  rw [← run_filter_buckets, List.filter_append, hnone, List.append_nil, run_filter_buckets]

/-- The book of one key: its open window counts what it has admitted, no window has admitted
more than the limit, and the windows lie apart. -/
structure Consistent (limiter : FixedWindowRateLimiter K) (s : Trace κ K) (key : κ) : Prop where
  windows : s.windows key = (s.buckets key).map (·.start)
  unopened : s.buckets key = none → ∀ e ∈ s.admitted, e.key ≠ key
  counted : ∀ w, s.buckets key = some w → s.used key w.start = w.count
  used_le : ∀ start, s.used key start ≤ limiter.limit
  latest : ∀ w, s.buckets key = some w → ∀ e ∈ s.admitted, e.key = key →
    e.start = w.start ∨ e.start + limiter.windowS ≤ w.start
  within : ∀ e ∈ s.admitted, e.key = key →
    e.start ≤ e.time ∧ e.time < e.start + limiter.windowS
  apart : ∀ e ∈ s.admitted, ∀ e' ∈ s.admitted, e.key = key → e'.key = key →
    e.start = e'.start ∨ e.start + limiter.windowS ≤ e'.start ∨
      e'.start + limiter.windowS ≤ e.start

theorem call_admitted :
    (s.call limiter c).admitted =
      if (limiter.allow s.buckets c.key c.time).1.allowed then
        ⟨c.key, c.time, windowOf limiter.windowS (s.windows c.key) c.time⟩ :: s.admitted
      else s.admitted := rfl

theorem Consistent.call_other (hs : Consistent limiter s key) (hkey : key ≠ c.key) :
    Consistent limiter (s.call limiter c) key := by
  have hbucket : (s.call limiter c).buckets key = s.buckets key := allow_other hkey
  have hold : ∀ e ∈ (s.call limiter c).admitted, e.key = key → e ∈ s.admitted := by
    intro e he hekey
    rw [call_admitted] at he
    split at he
    · obtain rfl | hold := List.mem_cons.mp he
      · exact absurd hekey.symm hkey
      · exact hold
    · exact he
  have hused : ∀ start, (s.call limiter c).used key start = s.used key start := by
    intro start
    unfold Trace.used
    rw [call_admitted]
    split
    · rw [List.countP_cons_of_neg]
      simp [Ne.symm hkey]
    · rfl
  constructor
  · rw [hbucket, ← hs.windows]
    exact Function.update_of_ne hkey _ _
  · intro hnone e he hekey
    rw [hbucket] at hnone
    exact hs.unopened hnone e (hold e he hekey) hekey
  · intro w hw
    rw [hused]
    exact hs.counted w (hbucket ▸ hw)
  · intro start
    rw [hused]
    exact hs.used_le start
  · intro w hw e he hekey
    exact hs.latest w (hbucket ▸ hw) e (hold e he hekey) hekey
  · intro e he hekey
    exact hs.within e (hold e he hekey) hekey
  · intro e he e' he' hekey hekey'
    exact hs.apart e (hold e he hekey) e' (hold e' he' hekey') hekey hekey'

variable [IsStrictOrderedRing K] {t' : Trace κ K}

omit [FloorRing K] in
theorem Consistent.opened (hs : Consistent limiter s key) (hlimit : 1 ≤ limiter.limit)
    (hwindow : 0 < limiter.windowS)
    (hpast : ∀ e ∈ s.admitted, e.key = key → e.start + limiter.windowS ≤ t)
    (hwindows : t'.windows key = some t)
    (hbucket : t'.buckets key = some ⟨t, 1⟩) (hadmitted : t'.admitted = ⟨key, t, t⟩ :: s.admitted) :
    Consistent limiter t' key := by
  have hnone : s.used key t = 0 := by
    unfold Trace.used
    rw [List.countP_eq_zero]
    intro e he
    simp only [decide_eq_true_eq, not_and]
    intro hekey hstart
    have hle := hpast e he hekey
    linarith
  have hused : ∀ start, t'.used key start = s.used key start + if start = t then 1 else 0 := by
    intro start
    unfold Trace.used
    rw [hadmitted, List.countP_cons]
    simp [eq_comm]
  constructor
  · rw [hwindows, hbucket]
    rfl
  · intro hempty
    cases hempty.symm.trans hbucket
  · intro w hw
    obtain rfl := Option.some.inj (hw.symm.trans hbucket)
    rw [hused, hnone]
    simp
  · intro start
    rw [hused]
    split
    · rename_i heq
      rw [heq, hnone]
      exact hlimit
    · exact hs.used_le start
  · intro w hw e he hekey
    obtain rfl := Option.some.inj (hw.symm.trans hbucket)
    rw [hadmitted] at he
    obtain rfl | he := List.mem_cons.mp he
    · exact .inl rfl
    · exact .inr (hpast e he hekey)
  · intro e he hekey
    rw [hadmitted] at he
    obtain rfl | he := List.mem_cons.mp he
    · exact ⟨le_rfl, by linarith⟩
    · exact hs.within e he hekey
  · intro e he e' he' hekey hekey'
    rw [hadmitted] at he he'
    obtain rfl | he := List.mem_cons.mp he
    · obtain rfl | he' := List.mem_cons.mp he'
      · exact .inl rfl
      · exact .inr (.inr (hpast e' he' hekey'))
    · obtain rfl | he' := List.mem_cons.mp he'
      · exact .inr (.inl (hpast e he hekey))
      · exact hs.apart e he e' he' hekey hekey'

omit [FloorRing K] in
theorem Consistent.counts {w : Window K} (hs : Consistent limiter s key)
    (hold : s.buckets key = some w) (hstart : w.start ≤ t) (hopen : t - w.start < limiter.windowS)
    (hroom : w.count < limiter.limit) (hwindows : t'.windows key = some w.start)
    (hbucket : t'.buckets key = some { w with count := w.count + 1 })
    (hadmitted : t'.admitted = ⟨key, t, w.start⟩ :: s.admitted) : Consistent limiter t' key := by
  have hused : ∀ start, t'.used key start = s.used key start + if start = w.start then 1 else 0 := by
    intro start
    unfold Trace.used
    rw [hadmitted, List.countP_cons]
    simp [eq_comm]
  have hcount := hs.counted w hold
  constructor
  · rw [hwindows, hbucket]
    rfl
  · intro hempty
    cases hempty.symm.trans hbucket
  · intro w' hw'
    obtain rfl := Option.some.inj (hw'.symm.trans hbucket)
    rw [hused, if_pos rfl, hcount]
  · intro start
    rw [hused]
    split
    · rename_i heq
      rw [heq, hcount]
      exact hroom
    · exact hs.used_le start
  · intro w' hw' e he hekey
    obtain rfl := Option.some.inj (hw'.symm.trans hbucket)
    rw [hadmitted] at he
    obtain rfl | he := List.mem_cons.mp he
    · exact .inl rfl
    · exact hs.latest w hold e he hekey
  · intro e he hekey
    rw [hadmitted] at he
    obtain rfl | he := List.mem_cons.mp he
    · exact ⟨hstart, by linarith⟩
    · exact hs.within e he hekey
  · intro e he e' he' hekey hekey'
    rw [hadmitted] at he he'
    obtain rfl | he := List.mem_cons.mp he
    · obtain rfl | he' := List.mem_cons.mp he'
      · exact .inl rfl
      · obtain heq | hle := hs.latest w hold e' he' hekey'
        · exact .inl heq.symm
        · exact .inr (.inr hle)
    · obtain rfl | he' := List.mem_cons.mp he'
      · obtain heq | hle := hs.latest w hold e he hekey
        · exact .inl heq
        · exact .inr (.inl hle)
      · exact hs.apart e he e' he' hekey hekey'

theorem Consistent.call_self (hs : Consistent limiter s c.key) (hlimit : 1 ≤ limiter.limit)
    (hwindow : 0 < limiter.windowS)
    (hstart : ∀ w, s.buckets c.key = some w → w.start ≤ c.time) :
    Consistent limiter (s.call limiter c) c.key := by
  have hserved := allow_served limiter s.buckets c.key c.time
  have hadmitted := @call_admitted _ _ _ _ _ _ limiter s c
  have hwindows : (s.call limiter c).windows c.key =
      some (windowOf limiter.windowS (s.windows c.key) c.time) := Function.update_self ..
  rw [hs.windows] at hadmitted hwindows
  generalize hanswer : (limiter.allow s.buckets c.key c.time).1 = answer at hserved hadmitted
  generalize hbucket : (limiter.allow s.buckets c.key c.time).2 c.key = bucket at hserved
  have hafter : (s.call limiter c).buckets c.key = bucket := hbucket
  cases hserved with
  | opened hold =>
    have hnew : windowOf limiter.windowS ((s.buckets c.key).map (·.start)) c.time = c.time := by
      cases hw : s.buckets c.key with
      | none => rfl
      | some w => exact if_pos (hold w hw)
    rw [hnew] at hadmitted hwindows
    apply hs.opened hlimit hwindow _ hwindows hafter hadmitted
    intro e he hekey
    cases hw : s.buckets c.key with
    | none => exact absurd hekey (hs.unopened hw e he)
    | some w =>
      have helapsed := hold w hw
      obtain heq | hle := hs.latest w hw e he hekey
      · linarith
      · linarith
  | counted w hold hopen hroom =>
    have hsame : windowOf limiter.windowS ((s.buckets c.key).map (·.start)) c.time = w.start := by
      rw [hold]
      exact if_neg (not_le.mpr hopen)
    rw [hsame] at hadmitted hwindows
    exact hs.counts hold (hstart w hold) hopen hroom hwindows hafter hadmitted
  | refused w hold hopen hfull =>
    have hsame : windowOf limiter.windowS ((s.buckets c.key).map (·.start)) c.time = w.start := by
      rw [hold]
      exact if_neg (not_le.mpr hopen)
    rw [hsame] at hwindows
    have hused : ∀ start, (s.call limiter c).used c.key start = s.used c.key start := by
      intro start
      unfold Trace.used
      rw [hadmitted]
      rfl
    constructor
    · rw [hwindows, hafter]
      rfl
    · intro hempty
      cases hempty.symm.trans hafter
    · intro w' hw'
      obtain rfl := Option.some.inj (hw'.symm.trans hafter)
      rw [hused]
      exact hs.counted w' hold
    · intro start
      rw [hused]
      exact hs.used_le start
    · intro w' hw' e he
      obtain rfl := Option.some.inj (hw'.symm.trans hafter)
      rw [hadmitted] at he
      exact hs.latest w' hold e he
    · intro e he
      rw [hadmitted] at he
      exact hs.within e he
    · intro e he e' he'
      rw [hadmitted] at he he'
      exact hs.apart e he e' he'

theorem run_consistent (hlimit : 1 ≤ limiter.limit) (hwindow : 0 < limiter.windowS)
    (hsorted : calls.Pairwise fun c c' => c.time ≤ c'.time) (key : κ) :
    Consistent limiter (Trace.run limiter calls) key := by
  induction calls using List.reverseRecOn with
  | nil => exact
    { windows := rfl
      unopened := fun _ e he => by cases he
      counted := fun w hw => by cases hw
      used_le := fun start => Nat.zero_le _
      latest := fun w hw => by cases hw
      within := fun e he => by cases he
      apart := fun e he => by cases he }
  | append_singleton calls c ih =>
    obtain ⟨hfirst, -, hlast⟩ := List.pairwise_append.mp hsorted
    have hs := ih hfirst
    rw [run_snoc]
    by_cases hkey : key = c.key
    · subst hkey
      apply hs.call_self hlimit hwindow
      intro w hw
      obtain ⟨c', hmem, htime⟩ := run_started hw
      rw [← htime]
      exact hlast c' hmem c List.mem_cons_self
    · exact hs.call_other hkey

omit [FloorRing K] [IsStrictOrderedRing K] in
theorem Consistent.same_window (hs : Consistent limiter s key) (p : Admission κ K → Bool)
    (hp : ∀ e, p e = true → e.key = key)
    (hsame : ∀ e ∈ s.admitted, ∀ e' ∈ s.admitted, p e = true → p e' = true →
      e.start = e'.start) : s.admitted.countP p ≤ limiter.limit := by
  by_cases hany : ∃ e ∈ s.admitted, p e = true
  · obtain ⟨e, he, hpe⟩ := hany
    refine le_trans (List.countP_mono_left ?_) (hs.used_le e.start)
    intro e' he' hpe'
    simp only [decide_eq_true_eq]
    exact ⟨hp e' hpe', hsame e' he' e he hpe' hpe⟩
  · have hzero : s.admitted.countP p = 0 := by
      rw [List.countP_eq_zero]
      intro e he hpe
      exact hany ⟨e, he, hpe⟩
    rw [hzero]
    exact Nat.zero_le _

omit [FloorRing K] in
/-- An interval as long as a window meets one that started before it and one that started
in it. -/
theorem Consistent.burst (hs : Consistent limiter s key) (first : K) :
    s.admittedWithin key first (first + limiter.windowS) ≤ 2 * limiter.limit := by
  have hcut : s.admittedWithin key first (first + limiter.windowS) ≤
      s.admitted.countP (fun e => (e.key = key ∧ first ≤ e.time ∧
        e.time ≤ first + limiter.windowS) ∧ e.start ≤ first) +
      s.admitted.countP (fun e => (e.key = key ∧ first ≤ e.time ∧
        e.time ≤ first + limiter.windowS) ∧ first < e.start) := by
    unfold Trace.admittedWithin
    induction s.admitted with
    | nil => exact le_rfl
    | cons e rest ih =>
      simp only [List.countP_cons]
      by_cases hin : e.key = key ∧ first ≤ e.time ∧ e.time ≤ first + limiter.windowS
      · by_cases hstart : e.start ≤ first
        · simp only [hin, hstart, not_lt.mpr hstart, decide_true, decide_false, and_self, and_false,
            if_true, Bool.false_eq_true, if_false]
          omega
        · simp only [hin, hstart, not_le.mp hstart, decide_true, decide_false, and_self, and_false,
            if_true, Bool.false_eq_true, if_false]
          omega
      · simp only [hin, false_and, decide_false, Bool.false_eq_true, if_false]
        omega
  have hbefore := hs.same_window (fun e => (e.key = key ∧ first ≤ e.time ∧
    e.time ≤ first + limiter.windowS) ∧ e.start ≤ first) (by simp; tauto) (by
      intro e he e' he' hpe hpe'
      simp only [decide_eq_true_eq] at hpe hpe'
      obtain ⟨⟨hkey, hfirst, -⟩, hstart⟩ := hpe
      obtain ⟨⟨hkey', hfirst', -⟩, hstart'⟩ := hpe'
      have hwithin := (hs.within e he hkey).2
      have hwithin' := (hs.within e' he' hkey').2
      obtain heq | hle | hle := hs.apart e he e' he' hkey hkey'
      · exact heq
      · linarith
      · linarith)
  have hafter := hs.same_window (fun e => (e.key = key ∧ first ≤ e.time ∧
    e.time ≤ first + limiter.windowS) ∧ first < e.start) (by simp; tauto) (by
      intro e he e' he' hpe hpe'
      simp only [decide_eq_true_eq] at hpe hpe'
      obtain ⟨⟨hkey, -, hlast⟩, hstart⟩ := hpe
      obtain ⟨⟨hkey', -, hlast'⟩, hstart'⟩ := hpe'
      have hwithin := (hs.within e he hkey).1
      have hwithin' := (hs.within e' he' hkey').1
      obtain heq | hle | hle := hs.apart e he e' he' hkey hkey'
      · exact heq
      · linarith
      · linarith)
  omega

theorem refused_retry (hstart : ∀ w, buckets key = some w → w.start ≤ t)
    (h : (limiter.allow buckets key t).1.allowed = false) :
    ∃ w, buckets key = some w ∧ (limiter.allow buckets key t).2 key = some w ∧
      1 ≤ (limiter.allow buckets key t).1.retryAfter ∧
      ((limiter.allow buckets key t).1.retryAfter : K) ≤ limiter.windowS + 1 ∧
      limiter.windowS ≤ t + (limiter.allow buckets key t).1.retryAfter - w.start := by
  have hserved := allow_served limiter buckets key t
  generalize (limiter.allow buckets key t).1 = answer at hserved h ⊢
  generalize (limiter.allow buckets key t).2 key = bucket at hserved ⊢
  cases hserved with
  | opened hold | counted w hold => cases h
  | refused w hold hopen hfull =>
    have hpos : 0 ≤ limiter.windowS - (t - w.start) := by linarith
    have hint : toInt (limiter.windowS - (t - w.start)) = ⌊limiter.windowS - (t - w.start)⌋ :=
      if_pos hpos
    have hfloor : 0 ≤ ⌊limiter.windowS - (t - w.start)⌋ := Int.floor_nonneg.mpr hpos
    have hle := Int.floor_le (limiter.windowS - (t - w.start))
    have hlt := Int.lt_floor_add_one (limiter.windowS - (t - w.start))
    have hpast := hstart w hold
    refine ⟨w, hold, rfl, ?_, ?_, ?_⟩
    · rw [hint]
      exact Int.le_add_of_nonneg_left hfloor
    · rw [hint]
      push_cast
      linarith
    · rw [hint]
      push_cast
      linarith

/-- For calls at times that do not decrease: a window of a key admits at most the limit, an
interval as long as a window at most twice the limit; the answers to a key are those that
it gets alone; and after a refusal the next call of the key, at the time of the hint, is
allowed, where the hint is positive and at most one second more than a window. -/
theorem limiter_bounds (hlimit : 1 ≤ limiter.limit) (hwindow : 0 < limiter.windowS)
    (hsorted : calls.Pairwise fun c c' => c.time ≤ c'.time) (key : κ) :
    (∀ start, (Trace.run limiter calls).used key start ≤ limiter.limit) ∧
    (∀ first, (Trace.run limiter calls).admittedWithin key first (first + limiter.windowS) ≤
      2 * limiter.limit) ∧
    ((Trace.run limiter calls).answers.filter fun a => a.1 = key) =
      (Trace.run limiter (calls.filter fun c => c.key = key)).answers ∧
    ∀ t answer, (∀ c ∈ calls, c.time ≤ t) →
      (limiter.allow (Trace.run limiter calls).buckets key t).1 = answer →
      answer.allowed = false →
      1 ≤ answer.retryAfter ∧ (answer.retryAfter : K) ≤ limiter.windowS + 1 ∧
      ∀ between : List (Call κ K), (∀ c ∈ between, c.key ≠ key) →
        (limiter.allow (Trace.run limiter (calls ++ ⟨key, t⟩ :: between)).buckets key
          (t + answer.retryAfter)).1.allowed = true := by
  have hs := run_consistent hlimit hwindow hsorted key
  refine ⟨hs.used_le, hs.burst, run_filter_answers.symm, ?_⟩
  rintro t answer hlast rfl hrefused
  have hstart : ∀ w, (Trace.run limiter calls).buckets key = some w → w.start ≤ t := by
    intro w hw
    obtain ⟨c, hmem, htime⟩ := run_started hw
    rw [← htime]
    exact hlast c hmem
  obtain ⟨w, -, hafter, hpos, hbound, helapsed⟩ := refused_retry hstart hrefused
  refine ⟨hpos, hbound, fun between hbetween => ?_⟩
  apply allow_elapsed (w := w) _ helapsed
  have hcons : calls ++ ⟨key, t⟩ :: between = (calls ++ [⟨key, t⟩]) ++ between := by simp
  rw [hcons, run_other hbetween, run_snoc, call_buckets]
  exact hafter

end

/-- Two requests a minute, at the end of one window and at the start of the next. -/
theorem limiter_bounds_edge :
    (Trace.run (⟨2, 60⟩ : FixedWindowRateLimiter ℚ) [⟨"a", 0⟩, ⟨"a", 59⟩, ⟨"b", 59⟩, ⟨"a", 60⟩,
      ⟨"a", 61⟩]).admittedWithin "a" 59 (59 + 60) ≤ 2 * 2 :=
  (@limiter_bounds String ℚ _ _ _ _ ⟨2, 60⟩ _ _ (by decide) (by norm_num) (by norm_num) "a").2.1 59

end AutoPR.Ratelimit
