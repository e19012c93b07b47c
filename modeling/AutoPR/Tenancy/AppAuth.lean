import AutoPR.Routing.Router
import AutoPR.Tenancy.Store

/-! The GitHub App's credentials: tokens, each of one installation, and the clients that
use them. A process keeps both of its caches for itself. -/
namespace AutoPR.Tenancy
open Python Routing

inductive AuthError where
  | gitHubApp (detail : String)
  | raised (e : PyError)
deriving DecidableEq

structure Response where
  code : Nat
  text : String
  json : Py PyVal

abbrev HttpAnswer := Except String Response

structure InstallationToken where
  /-- The installation that the token was minted for. -/
  installationId : Int
  token : String
  expiresAt : Time
deriving DecidableEq

def InstallationToken.isLive (t : InstallationToken) (now : Time) : Bool := now < t.expiresAt

/-- One moment: the clock, and what GitHub answers then. -/
structure Moment where
  now : Time
  /-- The seconds that are left until `expires_at`. -/
  parseExpiry : PyVal → Py Time
  mint : Int → HttpAnswer
  repoInstallation : String → HttpAnswer
  permission : InstallationToken → String → String → HttpAnswer
  comment : InstallationToken → Comment → PostOutcome

def tokenRefreshMargin : Time := 60

def repoCacheTime : Time := 300

structure AppAuth where
  tokens : Int → Option InstallationToken
  repoCache : String → Option (Option Int × Time)
  own : ∀ i token, tokens i = some token → token.installationId = i

namespace AppAuth

def new : AppAuth where
  tokens := fun _ => none
  repoCache := fun _ => none
  own _ _ h := by cases h

def keepToken (auth : AppAuth) (fresh : InstallationToken) : AppAuth where
  tokens := Function.update auth.tokens fresh.installationId (some fresh)
  repoCache := auth.repoCache
  own i token h := by
    by_cases hi : i = fresh.installationId
    · subst hi
      rw [Function.update_self] at h
      cases h
      rfl
    · rw [Function.update_of_ne hi] at h
      exact auth.own i token h

def keepRepo (auth : AppAuth) (key : String) (installation : Option Int) (deadline : Time) :
    AppAuth :=
  { auth with repoCache := Function.update auth.repoCache key (some (installation, deadline)) }

def orRaise {α : Type} : Py α → Except AuthError α
  | .ok a => .ok a
  | .error e => .error (.raised e)

def refusal (what : String) (resp : Response) : AuthError :=
  .gitHubApp (what ++ ": HTTP " ++ toString resp.code ++ " " ++ takeFirst 200 resp.text)

def fetchInstallationToken (u : Unicode) (m : Moment) (i : Int) :
    Except AuthError InstallationToken :=
  match m.mint i with
  | .error detail => throw (.gitHubApp ("token mint transport error: " ++ detail))
  | .ok resp => do
      if 300 ≤ resp.code then
        throw (refusal ("token mint refused for installation " ++ toString i) resp)
      let data ← orRaise resp.json
      let token ← orRaise (data.get "token" (.str ""))
      if !token.truthy then throw (.gitHubApp "token mint returned no token")
      let left ← orRaise (data.get "expires_at" .none >>= m.parseExpiry)
      return ⟨i, token.toStr u, m.now + (left - tokenRefreshMargin)⟩

def installationToken (u : Unicode) (auth : AppAuth) (m : Moment) (i : Int) :
    Except AuthError InstallationToken × AppAuth :=
  match (auth.tokens i).filter (·.isLive m.now) with
  | some cached => (.ok cached, auth)
  | none =>
      match fetchInstallationToken u m i with
      | .ok fresh => (.ok fresh, auth.keepToken fresh)
      | .error e => (.error e, auth)

def readPermission (u : Unicode) : HttpAnswer → Except AuthError String
  | .error detail => .error (.gitHubApp ("permission lookup failed: " ++ detail))
  | .ok resp =>
      if resp.code = 404 then .ok "none"
      else if 300 ≤ resp.code then .error (refusal "permission lookup refused" resp)
      else orRaise do
        return u.lower ((← (← resp.json).get "permission" (.str "none")).toStr u)

/-- The permission of the login, asked with the installation's own token; `asked` is the
moment of the second call. -/
def collaboratorPermission (u : Unicode) (auth : AppAuth) (m asked : Moment) (i : Int)
    (repo login : String) : Except AuthError (InstallationToken × String) × AppAuth :=
  match auth.installationToken u m i with
  | (.error e, auth) => (.error e, auth)
  | (.ok token, auth) =>
      ((readPermission u (asked.permission token repo login)).map fun p => (token, p), auth)

def readInstallation (u : Unicode) : HttpAnswer → Except AuthError (Option Int)
  | .error detail => .error (.gitHubApp ("repo installation lookup failed: " ++ detail))
  | .ok resp =>
      if resp.code = 404 then .ok none
      else if 300 ≤ resp.code then .error (refusal "repo installation lookup refused" resp)
      else orRaise do
        let raw ← (← resp.json).get "id" .none
        if raw.isNone then return none
        return some (← raw.toInt u)

def cachedRepo (u : Unicode) (auth : AppAuth) (now : Time) (repo : String) :
    Option (Option Int × Time) :=
  (auth.repoCache (u.lower repo)).filter fun cached => now < cached.2

/-- Which installation owns the repository. -/
def repoInstallation (u : Unicode) (auth : AppAuth) (m : Moment) (repo : String) :
    Except AuthError (Option Int) × AppAuth :=
  match auth.cachedRepo u m.now repo with
  | some cached => (.ok cached.1, auth)
  | none =>
      match readInstallation u (m.repoInstallation repo) with
      | .ok info => (.ok info, auth.keepRepo (u.lower repo) info (m.now + repoCacheTime))
      | .error e => (.error e, auth)

end AppAuth

structure ClientSettings extends Settings where
  githubDryRun : Bool := true

def ClientSettings.writesNothing (cfg : ClientSettings) : Bool := cfg.handoffMode || cfg.githubDryRun

inductive Client where
  | fake
  | http (token : InstallationToken)
deriving DecidableEq

/-- The credential of a post by this client; a pretended one needs none. -/
def Client.token : Client → Option InstallationToken
  | .fake => none
  | .http token => some token

/-- The answer of the fake to its post after `calls` others. -/
def fakeAnswer (calls : Nat) : ActionResult where
  ok := true
  kind := "comment"
  url := "https://fake.github/comment/" ++ toString (calls + 1)

def Client.postIssueComment (client : Client) (m : Moment) (calls : Nat) (comment : Comment) :
    PostOutcome :=
  match client with
  | .fake => .answered (fakeAnswer calls)
  | .http token => m.comment token comment

/-- A client bound to one installation. -/
def AppAuth.client (cfg : ClientSettings) (auth : AppAuth) (m : Moment) (i : Int) :
    Except AuthError Client × AppAuth :=
  if cfg.writesNothing then (.ok .fake, auth)
  else
    match auth.installationToken cfg.unicode m i with
    | (.ok token, auth) => (.ok (.http token), auth)
    | (.error e, auth) => (.error e, auth)

section
variable {u : Unicode} {cfg : ClientSettings} {auth auth' : AppAuth} {m : Moment} {i : Int}
  {token : InstallationToken}

theorem fetchInstallationToken_own (h : AppAuth.fetchInstallationToken u m i = .ok token) :
    token.installationId = i := by
  unfold AppAuth.fetchInstallationToken at h
  split at h
  · cases h
  · simp only [bind, Except.bind, throw, throwThe, MonadExceptOf.throw, pure, Except.pure] at h
    repeat' split at h
    all_goals cases h
    rfl

theorem installationToken_own (h : auth.installationToken u m i = (.ok token, auth')) :
    token.installationId = i := by
  unfold AppAuth.installationToken at h
  split at h
  · rename_i cached hcached
    cases h
    exact auth.own i token (Option.filter_eq_some_iff.mp hcached).1
  · split at h
    · rename_i fresh hfresh
      cases h
      exact fetchInstallationToken_own hfresh
    · cases h

theorem client_own {client : Client} (h : auth.client cfg m i = (.ok client, auth'))
    (htoken : client.token = some token) : token.installationId = i := by
  unfold AppAuth.client at h
  split at h
  · cases h
    cases htoken
  · split at h
    · rename_i found auth'' hfound
      cases h
      cases htoken
      exact installationToken_own hfound
    · cases h

theorem permission_own {permission repo login : String} {asked : Moment}
    (h : auth.collaboratorPermission u m asked i repo login = (.ok (token, permission), auth')) :
    token.installationId = i ∧
      AppAuth.readPermission u (asked.permission token repo login) = .ok permission := by
  unfold AppAuth.collaboratorPermission at h
  split at h
  · cases h
  · rename_i found auth'' hfound
    simp only [Prod.mk.injEq] at h
    obtain ⟨hanswer, rfl⟩ := h
    cases hask : AppAuth.readPermission u (asked.permission found repo login) with
    | error e =>
      rw [hask] at hanswer
      cases hanswer
    | ok p =>
      rw [hask] at hanswer
      cases hanswer
      exact ⟨installationToken_own hfound, hask⟩

end

end AutoPR.Tenancy
