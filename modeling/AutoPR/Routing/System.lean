import AutoPR.Library.Transition
import AutoPR.Routing.Requests

/-! The decision store as one transition system, with any number of router runs
and of requests, each on a session of its own. -/
namespace AutoPR.Routing
open Python UnitOfWork Transition

/-- The stored decisions that a run starts from. -/
structure Ledger where
  rows : DecisionTable
  nextId : DecisionId
  rows_lt : ∀ d row, rows d = some row → d < nextId
  key_unique : ∀ d d' row row', rows d = some row → rows d' = some row' →
    row.dedupKey = row'.dedupKey → d = d'

def Ledger.empty : Ledger where
  rows := fun _ => none
  nextId := 0
  rows_lt _ _ h := by cases h
  key_unique _ _ _ _ h := by cases h

structure State where
  rows : DecisionTable
  nextId : DecisionId
  routers : RouterId → RouterPc
  requests : RequestId → RequestPc
  /-- Newest first. -/
  events : List Event

def State.initial (ledger : Ledger) : State where
  rows := ledger.rows
  nextId := ledger.nextId
  routers := fun _ => .idle
  requests := fun _ => .idle
  events := []

inductive Step where
  | router (r : RouterId) (act : RouterAct)
  | request (q : RequestId) (act : RequestAct)

def State.apply {Pc : Type} (s : State) (eff : Effect Pc) : State :=
  { s with
    rows := fun d => (eff.write d).or (s.rows d)
    nextId := if eff.grow then s.nextId + 1 else s.nextId
    events := eff.events ++ s.events }

def State.applyRouter (s : State) (r : RouterId) (eff : Effect RouterPc) : State :=
  { s.apply eff with routers := Function.update s.routers r eff.pc }

def State.applyRequest (s : State) (q : RequestId) (eff : Effect RequestPc) : State :=
  { s.apply eff with requests := Function.update s.requests q eff.pc }

def step (cfg : Settings) (s : State) : Step → Option State
  | .router r act =>
      (routerStep cfg s.rows s.nextId r (s.routers r) act).map (s.applyRouter r)
  | .request q act =>
      (requestStep cfg s.rows s.nextId q (s.requests q) act).map (s.applyRequest q)

def reviews (cfg : Settings) (ledger : Ledger) : System State Step where
  init := .initial ledger
  step := step cfg

def Settings.small : Settings := { unicode := .ascii }

/-- A reviewed pull request with this risk. -/
def PRState.sample (risk : String) : PRState :=
  { repo := some (.str "acme/api"), prNumber := some (.int 7), commitSha := some (.str "c0ffee"),
    riskScore := some (.str risk), summary := some (.str "Looks fine.") }

def posted : ActionResult := { ok := true, kind := "comment", url := "https://github.com/1" }

def refused : ActionResult := { ok := false, kind := "comment", detail := "HTTP 502" }

def routerRun (r : RouterId) (acts : List RouterAct) : List Step := acts.map (.router r)

def requestRun (q : RequestId) (acts : List RequestAct) : List Step := acts.map (.request q)

end AutoPR.Routing
