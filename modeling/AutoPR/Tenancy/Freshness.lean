import AutoPR.Library.Expiring
import AutoPR.Library.Transition
import AutoPR.Tenancy.AppAuth
import Mathlib.Algebra.Order.Field.Rat
import Mathlib.Algebra.Order.Floor.Defs
import Mathlib.Data.Rat.Floor

/-! How fresh the credentials of the GitHub App are. The App signs a token for itself, which it
uses for a while; GitHub mints tokens for installations and says when they expire; and what
GitHub says about a repository is kept for five minutes. The first cache goes by the wall
clock, the others go by the monotonic one. -/
namespace AutoPR.Tenancy
open Python Transition Expiring

def truncate (x : ℚ) : ℤ := if 0 ≤ x then ⌊x⌋ else ⌈x⌉

structure AppProcess where
  appId : Int
  /-- What the wall clock shows more than the monotonic one. -/
  skew : ℚ
  unicode : Unicode
  /-- The timestamp of an ISO date; nothing if `fromisoformat` does not read it. -/
  timestamp : String → Py (Option ℚ)

/-- `time.time()`, when `time.monotonic()` is `t`. -/
def AppProcess.wall (p : AppProcess) (t : ℚ) : ℚ := t + p.skew

structure Jwt where
  iat : Int
  exp : Int
  iss : String
deriving DecidableEq

inductive AppRequest where
  | accessToken (i : Int)
  | repoInstallation (repo : String)
deriving DecidableEq

structure Exchange where
  request : AppRequest
  bearer : Jwt
  askedAt : ℚ
  answer : HttpAnswer

/-- The times of a call, and what GitHub answers to a request during it. -/
structure Visit where
  start : ℚ
  signing : ℚ
  answered : ℚ
  start_le : start ≤ signing
  signing_le : signing ≤ answered
  answer : AppRequest → Jwt → HttpAnswer

structure Credentials where
  signed : Slot Jwt ℚ
  tokens : Int → Slot String ℚ
  repos : String → Slot (Option Int) ℚ
  /-- All requests so far, the last one first. -/
  exchanges : List Exchange

def appJwt (p : AppProcess) (now : ℚ) : Jwt where
  iat := truncate now - 60
  exp := truncate now + 540
  iss := toString p.appId

namespace Credentials

def empty : Credentials := ⟨none, fun _ => none, fun _ => none, []⟩

/-- Reused for half of its lifetime. -/
def jwt (p : AppProcess) (c : Credentials) (t : ℚ) : Jwt × Credentials :=
  match c.signed.live (p.wall t) with
  | some cached => (cached, c)
  | none => (appJwt p (p.wall t), { c with signed := some (appJwt p (p.wall t), p.wall t + 540 / 2) })

def ask (p : AppProcess) (c : Credentials) (v : Visit) (request : AppRequest) :
    HttpAnswer × Credentials :=
  let (bearer, c) := c.jwt p v.signing
  let answer := v.answer request bearer
  (answer, { c with exchanges := ⟨request, bearer, v.signing, answer⟩ :: c.exchanges })

def readExpiry (p : AppProcess) (raw : PyVal) : Py (Option ℚ) :=
  if !raw.truthy then return none
  else match raw with
    | .str s => p.timestamp (s.replace "Z" "+00:00")
    | _ => throw .attributeError

/-- `_parse_expiry`: the seconds that are left. -/
def parseExpiry (now : ℚ) : Option ℚ → ℚ
  | none => 3000
  | some expires => max 60 (expires - now)

/-- What a response to a mint says: the token, and the deadline of its use. -/
def readMint (p : AppProcess) (answered : ℚ) (i : Int) (resp : Response) :
    Except AuthError (String × ℚ) := do
  if 300 ≤ resp.code then
    throw (AppAuth.refusal ("token mint refused for installation " ++ toString i) resp)
  let data ← AppAuth.orRaise resp.json
  let token ← AppAuth.orRaise (data.get "token" (.str ""))
  if !token.truthy then throw (.gitHubApp "token mint returned no token")
  let stated ← AppAuth.orRaise (data.get "expires_at" .none >>= readExpiry p)
  let left := parseExpiry (p.wall answered) stated
  return (token.toStr p.unicode, answered + max 0 (left - 60))

def fetchInstallationToken (p : AppProcess) (c : Credentials) (v : Visit) (i : Int) :
    Except AuthError (String × ℚ) × Credentials :=
  let (answer, c) := c.ask p v (.accessToken i)
  match answer with
  | .error detail => (.error (.gitHubApp ("token mint transport error: " ++ detail)), c)
  | .ok resp => (readMint p v.answered i resp, c)

def installationToken (p : AppProcess) (c : Credentials) (v : Visit) (i : Int) :
    Except AuthError String × Credentials :=
  match (c.tokens i).live v.start with
  | some cached => (.ok cached, c)
  | none =>
      match c.fetchInstallationToken p v i with
      | (.ok (fresh, deadline), c) =>
          (.ok fresh, { c with tokens := Function.update c.tokens i (some (fresh, deadline)) })
      | (.error e, c) => (.error e, c)

def invalidate (c : Credentials) (i : Int) : Credentials :=
  { c with tokens := Function.update c.tokens i none }

def repoInstallation (p : AppProcess) (c : Credentials) (v : Visit) (repo : String) :
    Except AuthError (Option Int) × Credentials :=
  match (c.repos (p.unicode.lower repo)).live v.start with
  | some cached => (.ok cached, c)
  | none =>
      let (answer, c) := c.ask p v (.repoInstallation repo)
      match AppAuth.readInstallation p.unicode answer with
      | .ok info =>
          (.ok info, { c with
            repos := Function.update c.repos (p.unicode.lower repo) (some (info, v.start + 300)) })
      | .error e => (.error e, c)

end Credentials

inductive CredentialCall where
  | jwt
  | installationToken (i : Int)
  | invalidate (i : Int)
  | repoInstallation (repo : String)

def Credentials.after (p : AppProcess) (c : Credentials) (v : Visit) : CredentialCall → Credentials
  | .jwt => (c.jwt p v.start).2
  | .installationToken i => (c.installationToken p v i).2
  | .invalidate i => c.invalidate i
  | .repoInstallation repo => (c.repoInstallation p v repo).2

/-- Calls one after the other, in a process that has started at `boot`. -/
def credentials (p : AppProcess) (boot : ℚ) : System (Credentials × ℚ) (CredentialCall × Visit) where
  init := (.empty, boot)
  step := fun (c, clock) (call, v) =>
    if clock ≤ v.start then some (c.after p v call, v.answered) else none

theorem truncate_gt (x : ℚ) : x - 1 < truncate x := by
  unfold truncate
  split
  · exact Int.sub_one_lt_floor x
  · have hceil := Int.le_ceil x
    linarith

theorem appJwt_lifetime (p : AppProcess) (now : ℚ) : (appJwt p now).exp - (appJwt p now).iat = 600 := by
  unfold appJwt
  ring

theorem appJwt_lasts (p : AppProcess) {signedAt now : ℚ} (h : now < signedAt + 540 / 2) :
    now + 269 ≤ (appJwt p signedAt).exp := by
  have htruncate := truncate_gt signedAt
  unfold appJwt
  push_cast
  linarith

theorem deadline_le (p : AppProcess) (answered expires : ℚ) :
    answered + max 0 (Credentials.parseExpiry (p.wall answered) (some expires) - 60) ≤ answered ∨
      p.wall (answered + max 0 (Credentials.parseExpiry (p.wall answered) (some expires) - 60)) +
        60 = expires := by
  unfold Credentials.parseExpiry AppProcess.wall
  rcases le_total (expires - (answered + p.skew)) 60 with hshort | hlong
  · left
    dsimp only
    rw [max_eq_left hshort]
    norm_num
  · right
    dsimp only
    rw [max_eq_right hlong, max_eq_right (by linarith)]
    ring

/-- GitHub has minted the token for the installation, and stated this expiry, or none that can be
read. -/
structure Exchange.Mints (p : AppProcess) (e : Exchange) (i : Int) (token : String)
    (stated : Option ℚ) : Prop where
  request : e.request = .accessToken i
  answer : ∃ resp data raw, e.answer = .ok resp ∧ resp.code < 300 ∧ resp.json = .ok data ∧
    data.get "token" (.str "") = .ok raw ∧ raw.toStr p.unicode = token ∧
    (data.get "expires_at" .none >>= Credentials.readExpiry p) = .ok stated

/-- GitHub has told which installation owns the repository, in whatever case it was asked. -/
structure Exchange.Locates (p : AppProcess) (e : Exchange) (key : String) (found : Option Int) :
    Prop where
  request : ∃ repo, e.request = .repoInstallation repo ∧ p.unicode.lower repo = key
  answer : AppAuth.readInstallation p.unicode e.answer = .ok found

/-- GitHub has answered so in the call. -/
structure Exchange.During (e : Exchange) (v : Visit) : Prop where
  answer : e.answer = v.answer e.request e.bearer
  askedAt : e.askedAt = v.signing

structure Fresh (p : AppProcess) (clock : ℚ) (c : Credentials) : Prop where
  signed : ∀ token deadline, c.signed = some (token, deadline) →
    ∃ signedAt, token = appJwt p signedAt ∧ deadline = signedAt + 540 / 2
  tokens : ∀ i token deadline, c.tokens i = some (token, deadline) →
    ∃ e ∈ c.exchanges, ∃ stated, e.Mints p i token stated ∧
      ∀ expires, stated = some expires → deadline ≤ clock ∨ p.wall deadline + 60 = expires
  repos : ∀ key found deadline, c.repos key = some (found, deadline) →
    ∃ e ∈ c.exchanges, e.Locates p key found ∧ deadline ≤ e.askedAt + 300

section
variable {p : AppProcess} {c d : Credentials} {v : Visit} {clock t deadline : ℚ} {i : Int}
  {token repo : String} {found : Option Int} {request : AppRequest}

theorem Fresh.empty : Fresh p clock .empty where
  signed _ _ h := by cases h
  tokens _ _ _ h := by cases h
  repos _ _ _ h := by cases h

theorem Fresh.later (h : Fresh p clock c) (ht : clock ≤ t) : Fresh p t c where
  signed := h.signed
  tokens i token deadline hslot := by
    obtain ⟨e, hmem, stated, hmints, hexpiry⟩ := h.tokens i token deadline hslot
    exact ⟨e, hmem, stated, hmints, fun expires hstated => (hexpiry expires hstated).imp_left ht.trans'⟩
  repos := h.repos

theorem Fresh.recorded (h : Fresh p clock c) (e : Exchange) :
    Fresh p clock { c with exchanges := e :: c.exchanges } where
  signed := h.signed
  tokens i token deadline hslot := by
    obtain ⟨old, hmem, hold⟩ := h.tokens i token deadline hslot
    exact ⟨old, List.mem_cons_of_mem e hmem, hold⟩
  repos key found deadline hslot := by
    obtain ⟨old, hmem, hold⟩ := h.repos key found deadline hslot
    exact ⟨old, List.mem_cons_of_mem e hmem, hold⟩

theorem Fresh.jwt (h : Fresh p clock c) (t : ℚ) : Fresh p clock (c.jwt p t).2 := by
  unfold Credentials.jwt
  split
  · exact h
  · refine ⟨?_, h.tokens, h.repos⟩
    intro token deadline hslot
    cases hslot
    exact ⟨p.wall t, rfl, rfl⟩

theorem Fresh.ask (h : Fresh p clock c) (v : Visit) (request : AppRequest) :
    Fresh p clock (c.ask p v request).2 :=
  (h.jwt v.signing).recorded _

theorem jwt_exchanges (t : ℚ) : (c.jwt p t).2.exchanges = c.exchanges := by
  unfold Credentials.jwt
  split <;> rfl

theorem ask_exchanges (request : AppRequest) : ∃ e : Exchange,
    (c.ask p v request).2.exchanges = e :: c.exchanges ∧ e.request = request ∧
      e.answer = (c.ask p v request).1 ∧ e.During v := by
  unfold Credentials.ask
  exact ⟨_, congrArg _ (jwt_exchanges _), rfl, rfl, rfl, rfl⟩

theorem Fresh.jwt_lasts (h : Fresh p clock c) (t : ℚ) :
    (c.jwt p t).1.exp - (c.jwt p t).1.iat ≤ 600 ∧ p.wall t + 269 ≤ (c.jwt p t).1.exp := by
  unfold Credentials.jwt
  cases hlive : c.signed.live (p.wall t) with
  | none => exact ⟨(appJwt_lifetime p _).le, appJwt_lasts p (by norm_num)⟩
  | some cached =>
    obtain ⟨deadline, hslot, hnow⟩ := Slot.live_eq_some_iff.mp hlive
    obtain ⟨signedAt, rfl, rfl⟩ := h.signed cached deadline hslot
    exact ⟨(appJwt_lifetime p _).le, appJwt_lasts p hnow⟩

theorem orRaise_ok {α : Type} {x : Py α} {a : α} (h : AppAuth.orRaise x = .ok a) : x = .ok a := by
  cases x with
  | ok b => exact congrArg Except.ok (Except.ok.inj h)
  | error e => cases h

theorem readMint_ok {resp : Response} {answered : ℚ}
    (h : Credentials.readMint p answered i resp = .ok (token, deadline)) :
    resp.code < 300 ∧ ∃ data raw stated, resp.json = .ok data ∧
      data.get "token" (.str "") = .ok raw ∧ raw.toStr p.unicode = token ∧
      (data.get "expires_at" .none >>= Credentials.readExpiry p) = .ok stated ∧
      deadline = answered + max 0 (Credentials.parseExpiry (p.wall answered) stated - 60) := by
  unfold Credentials.readMint at h
  split at h
  · cases h
  · rename_i hcode
    obtain ⟨data, hdata, h⟩ := ok_of_bind h
    obtain ⟨raw, hraw, h⟩ := ok_of_bind h
    split at h
    · cases h
    · obtain ⟨stated, hstated, h⟩ := ok_of_bind h
      cases h
      exact ⟨Nat.not_le.mp hcode, data, raw, stated, orRaise_ok hdata, orRaise_ok hraw, rfl,
        orRaise_ok hstated, rfl⟩

theorem fetch_ok (h : c.fetchInstallationToken p v i = (.ok (token, deadline), d)) :
    d = (c.ask p v (.accessToken i)).2 ∧ ∃ e stated, d.exchanges = e :: c.exchanges ∧
      e.Mints p i token stated ∧ e.During v ∧ ∀ expires, stated = some expires →
        deadline ≤ v.answered ∨ p.wall deadline + 60 = expires := by
  obtain ⟨e, hexchanges, hrequest, hanswer, hcall⟩ := @ask_exchanges p c v (.accessToken i)
  unfold Credentials.fetchInstallationToken at h
  dsimp only at h
  split at h
  · cases h
  · rename_i resp hresp
    obtain ⟨hread, rfl⟩ := Prod.mk.inj h
    obtain ⟨hcode, data, raw, stated, hjson, hraw, htoken, hstated, rfl⟩ := readMint_ok hread
    refine ⟨rfl, e, stated, hexchanges, ⟨hrequest, resp, data, raw, ?_, hcode, hjson, hraw, htoken,
      hstated⟩, hcall, ?_⟩
    · rw [hanswer, hresp]
    · rintro expires rfl
      exact deadline_le p v.answered expires

theorem fetch_error {e : AuthError} (h : c.fetchInstallationToken p v i = (.error e, d)) :
    d = (c.ask p v (.accessToken i)).2 := by
  unfold Credentials.fetchInstallationToken at h
  dsimp only at h
  split at h
  · exact (Prod.mk.inj h).2.symm
  · exact (Prod.mk.inj h).2.symm

theorem Visit.start_le_answered (v : Visit) : v.start ≤ v.answered := v.start_le.trans v.signing_le

theorem Fresh.installationToken (h : Fresh p v.start c) (i : Int) :
    Fresh p v.answered (c.installationToken p v i).2 := by
  have hlater := h.later v.start_le_answered
  unfold Credentials.installationToken
  split
  · exact hlater
  · split
    · rename_i fresh deadline d hfetch
      obtain ⟨rfl, e, stated, hexchanges, hmints, -, hexpiry⟩ := fetch_ok hfetch
      have hasked := hlater.ask v (.accessToken i)
      refine ⟨hasked.signed, forall_update hasked.tokens ?_, hasked.repos⟩
      rintro _ _ ⟨⟩
      exact ⟨e, hexchanges ▸ List.mem_cons_self, stated, hmints, hexpiry⟩
    · rename_i e d hfetch
      rw [fetch_error hfetch]
      exact hlater.ask v (.accessToken i)

theorem Fresh.invalidate (h : Fresh p clock c) (i : Int) : Fresh p clock (c.invalidate i) where
  signed := h.signed
  tokens := forall_update h.tokens (by simp)
  repos := h.repos

theorem Fresh.repoInstallation (h : Fresh p v.start c) (repo : String) :
    Fresh p v.answered (c.repoInstallation p v repo).2 := by
  have hlater := h.later v.start_le_answered
  unfold Credentials.repoInstallation
  split
  · exact hlater
  · have hasked := hlater.ask v (.repoInstallation repo)
    obtain ⟨e, hexchanges, hrequest, hanswer, hcall⟩ := @ask_exchanges p c v (.repoInstallation repo)
    dsimp only
    split
    · rename_i info hinfo
      refine ⟨hasked.signed, hasked.tokens, forall_update hasked.repos ?_⟩
      rintro _ _ ⟨⟩
      refine ⟨e, hexchanges ▸ List.mem_cons_self, ⟨⟨repo, hrequest, rfl⟩, hanswer ▸ hinfo⟩, ?_⟩
      rw [hcall.askedAt]
      have hle := v.start_le
      linarith
    · exact hasked

theorem Fresh.after (h : Fresh p v.start c) (call : CredentialCall) :
    Fresh p v.answered (c.after p v call) := by
  cases call with
  | jwt => exact (h.jwt v.start).later v.start_le_answered
  | installationToken i => exact h.installationToken i
  | invalidate i => exact (h.invalidate i).later v.start_le_answered
  | repoInstallation repo => exact h.repoInstallation repo

theorem reachable_fresh {boot : ℚ} {s : Credentials × ℚ}
    (h : (credentials p boot).Reachable anyStep s) : Fresh p s.2 s.1 := by
  apply Reachable.invariant (I := fun s => Fresh p s.2 s.1) (J := fun _ => True)
    (fun _ _ => trivial) Fresh.empty _ h
  rintro ⟨c, clock⟩ ⟨call, v⟩ t - - hstep hfresh
  simp only [credentials] at hstep
  split at hstep
  · rename_i hle
    cases hstep
    exact (hfresh.later hle).after call
  · cases hstep

theorem after_exchanges (call : CredentialCall) : (c.after p v call).exchanges = c.exchanges ∨
    ∃ e : Exchange, (c.after p v call).exchanges = e :: c.exchanges ∧ e.During v := by
  cases call with
  | jwt => exact .inl (jwt_exchanges _)
  | invalidate i => exact .inl rfl
  | installationToken i =>
    obtain ⟨e, hexchanges, -, -, hcall⟩ := @ask_exchanges p c v (.accessToken i)
    unfold Credentials.after Credentials.installationToken
    dsimp only
    split
    · exact .inl rfl
    · split
      · rename_i fresh deadline d hfetch
        rw [(fetch_ok hfetch).1]
        exact .inr ⟨e, hexchanges, hcall⟩
      · rename_i error d hfetch
        rw [fetch_error hfetch]
        exact .inr ⟨e, hexchanges, hcall⟩
  | repoInstallation repo =>
    obtain ⟨e, hexchanges, -, -, hcall⟩ := @ask_exchanges p c v (.repoInstallation repo)
    unfold Credentials.after Credentials.repoInstallation
    dsimp only
    split
    · exact .inl rfl
    · split
      · exact .inr ⟨e, hexchanges, hcall⟩
      · exact .inr ⟨e, hexchanges, hcall⟩

theorem exec_exchanges {boot : ℚ} {calls : List (CredentialCall × Visit)} {s t : Credentials × ℚ}
    (h : (credentials p boot).exec calls s = some t) :
    ∀ e ∈ t.1.exchanges, e ∈ s.1.exchanges ∨ ∃ call ∈ calls, e.During call.2 := by
  induction calls generalizing s with
  | nil =>
    cases h
    exact fun e he => .inl he
  | cons call rest ih =>
    obtain ⟨u, hstep, hrest⟩ := Option.bind_eq_some_iff.mp h
    simp only [credentials] at hstep
    split at hstep
    · cases hstep
      intro e he
      obtain he | ⟨later, hlater, hduring⟩ := ih hrest e he
      · obtain hsame | ⟨made, hmade, hduring⟩ := after_exchanges (p := p) (v := call.2) call.1
        · exact .inl (hsame ▸ he)
        · rw [hmade, List.mem_cons] at he
          obtain rfl | he := he
          · exact .inr ⟨call, List.mem_cons_self, hduring⟩
          · exact .inl he
      · exact .inr ⟨later, List.mem_cons_of_mem _ hlater, hduring⟩
    · cases hstep

/-- A token is one that GitHub has minted for the installation: in this call, or with a minute
left before the expiry that the response stated. -/
theorem Fresh.token_lasts (h : Fresh p v.start c)
    (hgot : c.installationToken p v i = (.ok token, d)) :
    ∃ e ∈ d.exchanges, ∃ stated, e.Mints p i token stated ∧
      (d.exchanges = e :: c.exchanges ∧ e.During v ∨ e ∈ c.exchanges ∧
        ∀ expires, stated = some expires → p.wall v.start + 60 ≤ expires) := by
  unfold Credentials.installationToken at hgot
  cases hlive : (c.tokens i).live v.start with
  | some cached =>
    rw [hlive] at hgot
    cases hgot
    obtain ⟨deadline, hslot, hnow⟩ := Slot.live_eq_some_iff.mp hlive
    obtain ⟨e, hmem, stated, hmints, hexpiry⟩ := h.tokens i token deadline hslot
    refine ⟨e, hmem, stated, hmints, .inr ⟨hmem, fun expires hstated => ?_⟩⟩
    rcases hexpiry expires hstated with hpast | hmargin
    · exact absurd hnow (not_lt.mpr hpast)
    · unfold AppProcess.wall at hmargin ⊢
      linarith
  | none =>
    rw [hlive] at hgot
    dsimp only at hgot
    split at hgot
    · rename_i fresh deadline d' hfetch
      cases hgot
      obtain ⟨-, e, stated, hexchanges, hmints, hduring, -⟩ := fetch_ok hfetch
      exact ⟨e, hexchanges ▸ List.mem_cons_self, stated, hmints, .inl ⟨hexchanges, hduring⟩⟩
    · cases hgot

theorem Fresh.repo_recent (h : Fresh p v.start c)
    (hgot : c.repoInstallation p v repo = (.ok found, d)) :
    ∃ e ∈ d.exchanges, e.Locates p (p.unicode.lower repo) found ∧
      (e.During v ∨ e ∈ c.exchanges) ∧ v.start ≤ e.askedAt + 300 := by
  unfold Credentials.repoInstallation at hgot
  cases hlive : (c.repos (p.unicode.lower repo)).live v.start with
  | some cached =>
    rw [hlive] at hgot
    cases hgot
    obtain ⟨deadline, hslot, hnow⟩ := Slot.live_eq_some_iff.mp hlive
    obtain ⟨e, hmem, hlocates, hle⟩ := h.repos _ _ _ hslot
    exact ⟨e, hmem, hlocates, .inr hmem, hnow.le.trans hle⟩
  | none =>
    rw [hlive] at hgot
    obtain ⟨e, hexchanges, hrequest, hanswer, hcall⟩ := @ask_exchanges p c v (.repoInstallation repo)
    dsimp only at hgot
    split at hgot
    · rename_i info hinfo
      cases hgot
      refine ⟨e, hexchanges ▸ List.mem_cons_self, ⟨⟨repo, hrequest, rfl⟩, hanswer ▸ hinfo⟩,
        .inl hcall, ?_⟩
      rw [hcall.askedAt]
      have hle := v.start_le
      linarith
    · cases hgot

end

/-- After any calls at non-decreasing times, and for many installations, every answer on record was
given by GitHub in one of the calls. The App's token lasts for 269 seconds more; an installation's
token is one that GitHub has minted for it, in this call or with a minute left before the expiry
that its response stated; and what is known of a repository is an answer to a request that was made
at most five minutes ago. -/
theorem credentials_fresh {p : AppProcess} {boot : ℚ} {calls : List (CredentialCall × Visit)}
    {s : Credentials × ℚ} (h : (credentials p boot).exec calls (.empty, boot) = some s) :
    (∀ e ∈ s.1.exchanges, ∃ call ∈ calls, e.During call.2) ∧
    (∀ t, (s.1.jwt p t).1.exp - (s.1.jwt p t).1.iat ≤ 600 ∧
      p.wall t + 269 ≤ (s.1.jwt p t).1.exp) ∧
    ∀ v : Visit, s.2 ≤ v.start →
      (∀ i token c, s.1.installationToken p v i = (.ok token, c) →
        ∃ e ∈ c.exchanges, ∃ stated, e.Mints p i token stated ∧
          (c.exchanges = e :: s.1.exchanges ∧ e.During v ∨ e ∈ s.1.exchanges ∧
            ∀ expires, stated = some expires → p.wall v.start + 60 ≤ expires)) ∧
      ∀ repo found c, s.1.repoInstallation p v repo = (.ok found, c) →
        ∃ e ∈ c.exchanges, e.Locates p (p.unicode.lower repo) found ∧
          (e.During v ∨ e ∈ s.1.exchanges) ∧ v.start ≤ e.askedAt + 300 := by
  have hfresh : Fresh p s.2 s.1 := reachable_fresh (Run.of_exec h (System.Admits.any _ _))
  refine ⟨?_, hfresh.jwt_lasts, fun v hv => ⟨?_, ?_⟩⟩
  · intro e he
    obtain hnone | hcall := exec_exchanges h e he
    · cases hnone
    · exact hcall
  · exact fun i token c hgot => (hfresh.later hv).token_lasts hgot
  · exact fun repo found c hgot => (hfresh.later hv).repo_recent hgot

/-- A process whose wall clock is 1000 seconds ahead, and a response that expires at 4600 by it. -/
def AppProcess.sample : AppProcess where
  appId := 7
  skew := 1000
  unicode := .ascii
  timestamp _ := .ok (some 4600)

def Visit.at (start answered : ℚ) (h : start ≤ answered) (answer : AppRequest → Jwt → HttpAnswer) :
    Visit :=
  ⟨start, start, answered, le_refl start, h, answer⟩

def Visit.minting : Visit :=
  Visit.at 0 1 (by norm_num) fun _ _ => .ok ⟨201, "", .ok (.dict
    [("token", .str "ghs_1"), ("expires_at", .str "2026-01-01T00:00:00Z")])⟩

def Credentials.minted : Credentials := Credentials.empty.after .sample .minting (.installationToken 5)

theorem minted_slot : Credentials.minted.tokens 5 = some ("ghs_1", 3540) := by
  decide +kernel

theorem later_le : (3000 : ℚ) ≤ 3001 := by norm_num

/-- An hour's token, asked for again after 3000 seconds. -/
theorem minted_token_lasts :
    Credentials.minted.installationToken .sample
        (Visit.at 3000 3001 later_le fun _ _ => .error "offline") 5 = (.ok "ghs_1", .minted) ∧
      ∃ e ∈ Credentials.minted.exchanges, e.During .minting ∧
        ∃ stated, e.Mints .sample 5 "ghs_1" stated := by
  have hrun : (credentials .sample 0).exec [(.installationToken 5, .minting)] (.empty, 0) =
      some (Credentials.minted, 1) := rfl
  have hlive : (Credentials.minted.tokens 5).live 3000 = some "ghs_1" :=
    Slot.live_eq_some_iff.mpr ⟨3540, minted_slot, by norm_num⟩
  have hgot : Credentials.minted.installationToken .sample
      (Visit.at 3000 3001 later_le fun _ _ => .error "offline") 5 = (.ok "ghs_1", .minted) := by
    unfold Credentials.installationToken
    change (match (Credentials.minted.tokens 5).live 3000 with | some cached => _ | none => _) = _
    rw [hlive]
  obtain ⟨hrecord, -, hvisit⟩ := credentials_fresh hrun
  obtain ⟨e, hmem, stated, hmints, -⟩ :=
    (hvisit (Visit.at 3000 3001 later_le fun _ _ => .error "offline") (by decide)).1 5 _ _ hgot
  obtain ⟨call, hcall, hduring⟩ := hrecord e hmem
  rw [List.mem_singleton.mp hcall] at hduring
  exact ⟨hgot, e, hmem, hduring, stated, hmints⟩

end AutoPR.Tenancy
