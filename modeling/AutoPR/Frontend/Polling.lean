import AutoPR.Library.Transition

/-! The hook that polls the API for a page of the dashboard. One request is out at a time, and
while it is, nothing else is asked: a request that outlives a change of the query keeps the new
query waiting, and its answer is shown as the answer to it. -/
namespace AutoPR.Frontend
open Transition

variable {D V E : Type}

/-- A value, with the query that it answers and the one in force when it was stored. -/
structure Stored (D V : Type) where
  value : V
  askedUnder : D
  storedUnder : D

/-- What the effect depends on: `[intervalMs, ...deps]`. -/
structure EffectKey (D : Type) where
  intervalMs : Nat
  deps : D
deriving DecidableEq

structure Hook (D V E : Type) where
  data : Option (Stored D V) := none
  error : Option E := none
  loading : Bool := true
  refreshing : Bool := false
  updatedAt : Option Nat := none
  /-- The arguments of the last render; the function of that render is in `fnRef`. -/
  rendered : EffectKey D
  /-- React has still to run the effect of the last render. -/
  effectDue : Bool := true
  /-- The interval and the listener are set up. -/
  listening : Bool := false
  visible : Bool
  /-- The query of the request that is out. -/
  inflight : Option D := none
  /-- A request has been made since the query last changed. -/
  asked : Bool := false

inductive Event (D V E : Type) where
  | render (key : EffectKey D)
  | effect
  | tick
  | visibility (visible : Bool)
  | reload
  | resolve (value : V) (now : Nat)
  | reject (error : E)

def Hook.load (s : Hook D V E) (silent : Bool) : Hook D V E :=
  match s.inflight with
  | some _ => s
  | none =>
      { s with
        inflight := some s.rendered.deps
        refreshing := silent || s.refreshing
        asked := true }

def Hook.loadVisible (s : Hook D V E) : Hook D V E := if s.visible then s.load true else s

def Hook.settle (s : Hook D V E) : Hook D V E :=
  { s with loading := false, refreshing := false, inflight := none }

/-- Before it renders again, React runs the effect that is due. -/
def Hook.step [DecidableEq D] (s : Hook D V E) : Event D V E → Option (Hook D V E)
  | .render key =>
      if s.effectDue then none
      else some { s with
        rendered := key
        effectDue := key ≠ s.rendered
        asked := s.asked && key.deps = s.rendered.deps }
  | .effect =>
      if s.effectDue then some { s.load false with effectDue := false, listening := true } else none
  | .tick => if s.listening then some s.loadVisible else none
  | .visibility visible =>
      let s := { s with visible := visible }
      some (if s.listening then s.loadVisible else s)
  | .reload => some (s.load true)
  | .resolve value now =>
      s.inflight.map fun asked =>
        { s.settle with
          data := some ⟨value, asked, s.rendered.deps⟩
          error := none
          updatedAt := some now }
  | .reject error => s.inflight.map fun _ => { s.settle with error := some error }

def Event.polls : Event D V E → Bool
  | .effect | .tick | .visibility _ | .reload => true
  | .render _ | .resolve _ _ | .reject _ => false

def usePolling [DecidableEq D] (key : EffectKey D) (visible : Bool) :
    System (Hook D V E) (Event D V E) where
  init := { rendered := key, visible := visible }
  step := Hook.step

/-- Once the effect has run the query in force has been asked, and what is shown answers the
query that was in force when it was stored. -/
structure Hook.ShowsCurrent (s : Hook D V E) : Prop where
  issued : s.effectDue = false → s.asked = true
  stored : ∀ x, s.data = some x → x.askedUnder = x.storedUnder

/-- The query changes only while no request is out. -/
def changesAtRest (s : Hook D V E) : Event D V E → Prop
  | .render key => key.deps = s.rendered.deps ∨ s.inflight = none
  | _ => True

structure Hook.Synced (s : Hook D V E) : Prop extends s.ShowsCurrent where
  current : ∀ deps, s.inflight = some deps → deps = s.rendered.deps ∧ s.asked = true

section
variable {s t : Hook D V E}

theorem Hook.Synced.load (h : s.Synced) (silent : Bool) : (s.load silent).Synced := by
  unfold Hook.load
  split
  · exact h
  · refine ⟨⟨fun _ => rfl, h.stored⟩, ?_⟩
    rintro deps ⟨⟩
    exact ⟨rfl, rfl⟩

theorem Hook.Synced.asked_load (h : s.Synced) (silent : Bool) : (s.load silent).asked = true := by
  unfold Hook.load
  split
  · rename_i deps hout
    exact (h.current deps hout).2
  · rfl

theorem Hook.Synced.loadVisible (h : s.Synced) : s.loadVisible.Synced := by
  unfold Hook.loadVisible
  split
  · exact h.load true
  · exact h

theorem Hook.Synced.render [DecidableEq D] (h : s.Synced) {key : EffectKey D}
    (hdue : s.effectDue = false) (hrest : key.deps = s.rendered.deps ∨ s.inflight = none) :
    Hook.Synced { s with
      rendered := key
      effectDue := key ≠ s.rendered
      asked := s.asked && key.deps = s.rendered.deps } := by
  refine ⟨⟨?_, h.stored⟩, ?_⟩
  · intro hsame
    have hkey : key = s.rendered := by simpa using hsame
    simp [hkey, h.issued hdue]
  · intro deps hout
    rcases hrest with hdeps | hnone
    · obtain ⟨hcurrent, hasked⟩ := h.current deps hout
      refine ⟨hcurrent.trans hdeps.symm, ?_⟩
      simp [hasked, hdeps]
    · cases hnone.symm.trans hout

theorem Hook.Synced.settle (h : s.Synced) : s.settle.Synced :=
  ⟨⟨h.issued, h.stored⟩, fun _ hout => by cases hout⟩

theorem Hook.Synced.step [DecidableEq D] (h : s.Synced) {e : Event D V E}
    (hrest : changesAtRest s e) (hstep : s.step e = some t) : t.Synced := by
  cases e with
  | render key =>
    dsimp only [Hook.step] at hstep
    split at hstep
    · cases hstep
    · rename_i hdue
      cases hstep
      exact h.render (eq_false_of_ne_true hdue) hrest
  | effect =>
    dsimp only [Hook.step] at hstep
    split at hstep
    · cases hstep
      have hload := h.load false
      exact ⟨⟨fun _ => h.asked_load false, hload.stored⟩, hload.current⟩
    · cases hstep
  | tick =>
    dsimp only [Hook.step] at hstep
    split at hstep
    · cases hstep
      exact h.loadVisible
    · cases hstep
  | visibility visible =>
    have hseen : Hook.Synced { s with visible := visible } := ⟨⟨h.issued, h.stored⟩, h.current⟩
    dsimp only [Hook.step] at hstep
    cases hstep
    split
    · exact hseen.loadVisible
    · exact hseen
  | reload =>
    cases hstep
    exact h.load true
  | resolve value now =>
    obtain ⟨asked, hout, rfl⟩ := Option.map_eq_some_iff.mp hstep
    have hsettle := h.settle
    refine ⟨⟨hsettle.issued, ?_⟩, hsettle.current⟩
    rintro x ⟨⟩
    exact (h.current asked hout).1
  | reject error =>
    obtain ⟨asked, hout, rfl⟩ := Option.map_eq_some_iff.mp hstep
    have hsettle := h.settle
    exact ⟨⟨hsettle.issued, hsettle.stored⟩, hsettle.current⟩

/-- While the query changes only between requests, the hook asks and shows the query in force. -/
theorem polling_shows_current [DecidableEq D] {key : EffectKey D} {visible : Bool}
    (h : (usePolling key visible).Reachable changesAtRest s) : s.ShowsCurrent := by
  have hsynced : s.Synced := by
    apply Reachable.invariant (I := Hook.Synced) (J := fun _ => True) (fun _ _ => trivial) _ _ h
    · refine ⟨⟨?_, ?_⟩, ?_⟩
      · intro hdue
        cases hdue
      · intro x hx
        cases hx
      · intro deps hout
        cases hout
    · exact fun u e v _ hrest hstep hu => hu.step hrest hstep
  exact hsynced.toShowsCurrent

end

/-- What is stored and what has been rendered are not the affair of a load. -/
structure Hook.Polled (s t : Hook D V E) : Prop where
  data : t.data = s.data
  rendered : t.rendered = s.rendered
  inflight : t.inflight = s.inflight ∨ s.inflight = none ∧ t.inflight = some s.rendered.deps

section
variable {s t : Hook D V E}

end

/-- The hook of a list that shows its first page. -/
abbrev firstPage : System (Hook Nat String String) (Event Nat String String) :=
  usePolling ⟨5000, 1⟩ true

/-- At rest on the second page, with the data of a request for the page `asked`. -/
def Hook.onSecond (value : String) (askedUnder now : Nat) (asked : Bool) :
    Hook Nat String String where
  data := some ⟨value, askedUnder, 2⟩
  loading := false
  updatedAt := some now
  rendered := ⟨5000, 2⟩
  effectDue := false
  listening := true
  visible := true
  asked := asked

/-- The first page is asked for and shown, then the second. -/
theorem turned_page_shows_current : (Hook.onSecond "second page" 2 2 true).ShowsCurrent := by
  have hrun : firstPage.exec
      [.effect, .resolve "first page" 1, .render ⟨5000, 2⟩, .effect, .resolve "second page" 2]
      firstPage.init = some (.onSecond "second page" 2 2 true) := rfl
  have hreach : firstPage.Reachable changesAtRest (.onSecond "second page" 2 2 true) :=
    Run.of_exec hrun ⟨trivial, trivial, .inr rfl, trivial, trivial, trivial⟩
  exact polling_shows_current hreach

/-- The page is turned before the first one has come: nobody asks for the second page, and the
first is shown in its place. -/
theorem stale_page_shown :
    ¬ ∀ s : Hook Nat String String, firstPage.Reachable anyStep s → s.ShowsCurrent := by
  intro h
  have hrun : firstPage.exec [.effect, .render ⟨5000, 2⟩, .effect, .resolve "first page" 1]
      firstPage.init = some (.onSecond "first page" 1 1 false) := rfl
  have hcurrent := h _ (Run.of_exec hrun (System.Admits.any _ _))
  cases hcurrent.stored _ rfl

end AutoPR.Frontend
