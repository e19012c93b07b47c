import AutoPR.Routing.Policy
import AutoPR.Webhook.Admission

/-! The agents of the pipeline. A model may answer anything, so the prompts are left out: what
an agent makes of its answer is here. A node that raises has no result. -/
namespace AutoPR.Pipeline
open Python Webhook

structure ChangedFile where
  path : String
  patch : String
deriving DecidableEq

abbrev Snapshot := List (String × String)

structure PipelineState extends Routing.PRState where
  changedFiles : List ChangedFile := []
  repoSnapshot : Option Snapshot := none
  failureExcerpt : Option PyVal := none
  fixAttempts : Option Int := none

structure PipelineSettings where
  routing : Routing.Settings
  maxFixAttempts : Int := 2
  /-- `json.loads` of a text. -/
  loads : String → Loaded

def PipelineSettings.unicode (cfg : PipelineSettings) : Unicode := cfg.routing.unicode

def messageText : PyVal → Option String
  | .str s => some s
  | content => do
      let parts ← content.iter.toOption
      return String.join (parts.filterMap fun part =>
        match part with
        | .str s => some s
        | _ => none)

def partition (mark : List Char) : List Char → Option (List Char × List Char)
  | [] => none
  | c :: rest =>
      if mark.isPrefixOf (c :: rest) then some ([], (c :: rest).drop mark.length)
      else (partition mark rest).map fun (before, after) => (c :: before, after)

def fence : List Char := ['`', '`', '`']

/-- What stands between the first two fences, without the name of the language. -/
def fencedBlock (text : List Char) : Option String := do
  let (_, opened) ← partition fence text
  let json := ['j', 's', 'o', 'n']
  let (block, _) ← partition fence (if json.isPrefixOf opened then opened.drop 4 else opened)
  return strip (String.ofList block)

/-- From the first opening bracket to the last closing one. -/
def bracketSpan (opening closing : Char) (text : List Char) : Option String :=
  let opened := text.dropWhile (· ≠ opening)
  let span := (opened.reverse.dropWhile (· ≠ closing)).reverse
  if span = [] then none else some (String.ofList span)

def firstJson (loads : String → Loaded) : List String → Option PyVal
  | [] => none
  | text :: rest =>
      match loads text with
      | .value v => some v
      | .decodeError => firstJson loads rest
      | .raised => none

def parseJson (loads : String → Loaded) (text : String) : Option PyVal :=
  let text := strip text
  firstJson loads (text :: ([fencedBlock text.toList, bracketSpan '{' '}' text.toList,
    bracketSpan '[' ']' text.toList].filterMap id))

abbrev Message := Option PyVal

def answerText (message : Message) : Option String := message.bind messageText

def answerJson (cfg : PipelineSettings) (message : Message) : Option PyVal :=
  (answerText message).bind (parseJson cfg.loads)

/-- The lines between the first and the last, `lines[1:-1]`. -/
def innerLines (text : String) : String :=
  String.ofList (['\n'].intercalate ((text.toList.splitOn '\n').tail.dropLast))

def isFenced (text : String) : Bool :=
  fence.isPrefixOf text.toList && decide (2 < (text.toList.splitOn '\n').length)

def unfence (text : String) : String := if isFenced text then innerLines text else text

def validRisk : List String := ["trivial", "low", "medium", "high"]

/-- `str(v).lower().strip()`, if it is one of the labels. -/
def label (u : Unicode) (labels : List String) (fallback : String) (v : PyVal) : String :=
  let s := strip (u.lower (v.toStr u))
  if s ∈ labels then s else fallback

/-- `len(v)`, which the log line takes of the findings. -/
def hasLength : PyVal → Bool
  | .str _ | .list _ | .dict _ => true
  | .none | .bool _ | .int _ | .float _ _ _ => false

def codeReviewerNode (cfg : PipelineSettings) (message : Message) (state : PipelineState) :
    Option PipelineState := do
  let data ← answerJson cfg message
  let risk ← (data.get "risk_score" (.str "medium")).toOption
  let findings ← (data.get "findings" (.list [])).toOption
  let summary ← (data.get "summary" (.str "")).toOption
  if hasLength findings then
    return { state with
      reviewFindings := some findings
      riskScore := some (.str (label cfg.unicode validRisk "medium" risk))
      summary := some summary }
  else none

def testGeneratorNode (message : Message) (state : PipelineState) : Option PipelineState := do
  let tests := unfence (strip (← answerText message))
  return { state with generatedTests := some (.str tests) }

def failureTypes : List String := ["lint", "type_error", "test", "import", "dependency", "unknown"]

def ciMonitorNode (cfg : PipelineSettings) (message : Message) (state : PipelineState) :
    Option PipelineState := do
  let logs ← (state.ciLogs.getD (.str "")).strip.toOption
  if logs = "" then
    return { state with
      failureType := some (.str "unknown")
      failureDiagnosis := some (.str "No CI logs available to diagnose.")
      failureExcerpt := some (.str "") }
  else
    let data ← answerJson cfg message
    let ftype ← (data.get "failure_type" (.str "unknown")).toOption
    let diagnosis ← (data.get "diagnosis" (.str "")).toOption
    let excerpt ← (data.get "excerpt" (.str "")).toOption
    return { state with
      failureType := some (.str (label cfg.unicode failureTypes "unknown" ftype))
      failureDiagnosis := some diagnosis
      failureExcerpt := some excerpt }

def readFix (text : String) : String :=
  let fix := unfence (strip text)
  if fix = "NO_FIX_POSSIBLE" then "" else fix

def fixAgentNode (message : Message) (state : PipelineState) : Option PipelineState := do
  let attempts := state.fixAttempts.getD 0 + 1
  if (state.failureType.getD (.str "unknown")).eqStr "unknown" then
    return { state with proposedFix := some (.str ""), fixAttempts := some attempts }
  else
    let text ← answerText message
    return { state with proposedFix := some (.str (readFix text)), fixAttempts := some attempts }

end AutoPR.Pipeline
