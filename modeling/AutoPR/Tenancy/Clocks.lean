import AutoPR.Tenancy.Freshness
import Mathlib.Data.Nat.Cast.Order.Ring

/-! The credentials as the other components use them, where a call takes no time and the clock
shows whole seconds. They and the credentials that go by real clocks agree call by call. -/
namespace AutoPR.Tenancy
open Python Expiring

structure Agrees (c : Credentials) (auth : AppAuth) : Prop where
  tokens : ∀ i, c.tokens i = (auth.tokens i).map fun t => (t.token, (t.expiresAt : ℚ))
  repos : ∀ key, c.repos key = (auth.repoCache key).map fun entry => (entry.1, (entry.2 : ℚ))

/-- A call that takes no time, at a whole second, and what it meets. -/
structure Visit.Within (v : Visit) (p : AppProcess) (m : Moment) : Prop where
  start : v.start = m.now
  answered : v.answered = m.now
  mint : ∀ i bearer, v.answer (.accessToken i) bearer = m.mint i
  repoInstallation : ∀ repo bearer,
    v.answer (.repoInstallation repo) bearer = m.repoInstallation repo
  parseExpiry : ∀ raw, (m.parseExpiry raw).map (fun left : Nat => (left : ℚ)) =
    (Credentials.readExpiry p raw).map (Credentials.parseExpiry (p.wall m.now))

variable {p : AppProcess} {c : Credentials} {v : Visit} {auth : AppAuth} {m : Moment} {i : Int}

theorem live_map {α β : Type} {f : α → β × ℕ} {entry : Option α} {now : Nat} :
    Slot.live (entry.map fun a => ((f a).1, ((f a).2 : ℚ))) (now : ℚ) =
      (entry.filter fun a => now < (f a).2).map fun a => (f a).1 := by
  cases entry with
  | none => rfl
  | some a =>
    unfold Slot.live
    simp only [Option.map_some, Option.filter_some, Nat.cast_lt]
    split <;> rfl

theorem margin_cast (left : Nat) :
    ((left - tokenRefreshMargin : ℕ) : ℚ) = max 0 ((left : ℚ) - 60) := by
  unfold tokenRefreshMargin
  obtain hle | hle := le_total left 60
  · have hcast : (left : ℚ) ≤ 60 := by exact_mod_cast hle
    rw [Nat.sub_eq_zero_of_le hle, max_eq_left (by linarith)]
    rfl
  · have hcast : (60 : ℚ) ≤ left := by exact_mod_cast hle
    rw [Nat.cast_sub hle, max_eq_right (by linarith)]
    rfl

theorem fetchInstallationToken_eq (hv : v.Within p m) : (c.fetchInstallationToken p v i).1 =
    match m.mint i with
    | .error detail => .error (.gitHubApp ("token mint transport error: " ++ detail))
    | .ok resp => Credentials.readMint p m.now i resp := by
  unfold Credentials.fetchInstallationToken
  cases hask : c.ask p v (.accessToken i) with
  | mk answer d =>
    have hanswer : m.mint i = answer :=
      (hv.mint i (c.jwt p v.signing).1).symm.trans (congrArg Prod.fst hask)
    rw [hanswer, hv.answered]
    cases answer <;> rfl

theorem expiry_agrees (hv : v.Within p m) (data : PyVal) :
    (data.get "expires_at" .none >>= m.parseExpiry).map (fun left : Nat => (left : ℚ)) =
      (data.get "expires_at" .none >>= Credentials.readExpiry p).map
        (Credentials.parseExpiry (p.wall m.now)) := by
  cases data.get "expires_at" .none with
  | error e => rfl
  | ok raw => exact hv.parseExpiry raw

theorem orRaise_ok_eq {α : Type} (a : α) : AppAuth.orRaise (.ok a) = pure a := rfl

theorem fetchInstallationToken_agrees (hv : v.Within p m) :
    (AppAuth.fetchInstallationToken p.unicode m i).map (fun t => (t.token, (t.expiresAt : ℚ))) =
      (c.fetchInstallationToken p v i).1 := by
  rw [fetchInstallationToken_eq hv]
  unfold AppAuth.fetchInstallationToken Credentials.readMint
  cases m.mint i with
  | error detail => rfl
  | ok resp =>
    dsimp only
    split
    · rfl
    · cases resp.json with
      | error e => rfl
      | ok data =>
        have hexpiry := expiry_agrees hv data
        simp only [orRaise_ok_eq, pure_bind]
        cases data.get "token" (.str "") with
        | error e => rfl
        | ok raw =>
          simp only [orRaise_ok_eq, pure_bind]
          split
          · rfl
          · generalize (data.get "expires_at" .none >>= m.parseExpiry) = left at hexpiry
            generalize (data.get "expires_at" .none >>= Credentials.readExpiry p) = stated at hexpiry
            cases left with
            | error e =>
              cases stated with
              | error e' =>
                cases hexpiry
                rfl
              | ok expires => cases hexpiry
            | ok left =>
              cases stated with
              | error e' => cases hexpiry
              | ok expires =>
                have hleft : (left : ℚ) = Credentials.parseExpiry (p.wall m.now) expires :=
                  Except.ok.inj hexpiry
                have hdeadline : ((m.now + (left - tokenRefreshMargin) : ℕ) : ℚ) =
                    m.now + max 0 (Credentials.parseExpiry (p.wall m.now) expires - 60) := by
                  rw [Nat.cast_add, margin_cast, hleft]
                exact congrArg (fun deadline => Except.ok (raw.toStr p.unicode, deadline)) hdeadline

theorem Agrees.jwt (h : Agrees c auth) (t : ℚ) : Agrees (c.jwt p t).2 auth := by
  unfold Credentials.jwt
  split
  · exact h
  · exact ⟨h.tokens, h.repos⟩

theorem Agrees.ask (h : Agrees c auth) (v : Visit) (request : AppRequest) :
    Agrees (c.ask p v request).2 auth :=
  ⟨(h.jwt v.signing).tokens, (h.jwt v.signing).repos⟩

theorem Agrees.installationToken (h : Agrees c auth) (hv : v.Within p m) (i : Int) :
    (auth.installationToken p.unicode m i).1.map (·.token) = (c.installationToken p v i).1 ∧
      Agrees (c.installationToken p v i).2 (auth.installationToken p.unicode m i).2 := by
  have hlive : (c.tokens i).live v.start =
      ((auth.tokens i).filter (·.isLive m.now)).map (·.token) := by
    rw [h.tokens i, hv.start]
    exact @live_map _ _ (fun t : InstallationToken => (t.token, t.expiresAt)) _ _
  have hfetch := @fetchInstallationToken_agrees p c v m i hv
  unfold AppAuth.installationToken Credentials.installationToken
  rw [hlive]
  cases (auth.tokens i).filter (·.isLive m.now) with
  | some cached => exact ⟨rfl, h⟩
  | none =>
    dsimp only [Option.map_none]
    cases hfresh : c.fetchInstallationToken p v i with
    | mk result d =>
      rw [hfresh] at hfetch
      cases hmint : AppAuth.fetchInstallationToken p.unicode m i with
      | error e =>
        rw [hmint] at hfetch
        obtain rfl : result = .error e := hfetch.symm
        refine ⟨rfl, ?_⟩
        rw [fetch_error hfresh]
        exact h.ask v _
      | ok fresh =>
        rw [hmint] at hfetch
        obtain rfl : result = .ok (fresh.token, (fresh.expiresAt : ℚ)) := hfetch.symm
        have hown := fetchInstallationToken_own hmint
        have hasked := h.ask v (.accessToken i) (p := p)
        rw [← (fetch_ok hfresh).1] at hasked
        refine ⟨rfl, fun j => ?_, hasked.repos⟩
        dsimp only [AppAuth.keepToken]
        rw [hown]
        by_cases hj : j = i
        · subst hj
          rw [Function.update_self, Function.update_self]
          rfl
        · rw [Function.update_of_ne hj, Function.update_of_ne hj]
          exact hasked.tokens j

theorem Agrees.repoInstallation (h : Agrees c auth) (hv : v.Within p m) (repo : String) :
    (auth.repoInstallation p.unicode m repo).1 = (c.repoInstallation p v repo).1 ∧
      Agrees (c.repoInstallation p v repo).2 (auth.repoInstallation p.unicode m repo).2 := by
  have hlive : (c.repos (p.unicode.lower repo)).live v.start =
      (auth.cachedRepo p.unicode m.now repo).map (·.1) := by
    rw [h.repos, hv.start]
    exact live_map
  unfold AppAuth.repoInstallation Credentials.repoInstallation
  rw [hlive]
  cases auth.cachedRepo p.unicode m.now repo with
  | some cached => exact ⟨rfl, h⟩
  | none =>
    have hasked := h.ask v (.repoInstallation repo) (p := p)
    dsimp only [Option.map_none]
    cases hask : c.ask p v (.repoInstallation repo) with
    | mk answer d =>
      have hanswer : m.repoInstallation repo = answer :=
        (hv.repoInstallation repo (c.jwt p v.signing).1).symm.trans (congrArg Prod.fst hask)
      rw [hask] at hasked
      rw [hanswer]
      cases AppAuth.readInstallation p.unicode answer with
      | error e => exact ⟨rfl, hasked⟩
      | ok info =>
        refine ⟨rfl, hasked.tokens, fun key => ?_⟩
        dsimp only [AppAuth.keepRepo]
        by_cases hkey : key = p.unicode.lower repo
        · subst hkey
          rw [Function.update_self, Function.update_self, hv.start]
          simp [repoCacheTime]
        · rw [Function.update_of_ne hkey, Function.update_of_ne hkey]
          exact hasked.repos key

theorem Agrees.new : Agrees .empty .new where
  tokens _ := rfl
  repos _ := rfl

end AutoPR.Tenancy
