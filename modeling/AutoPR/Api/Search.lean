import AutoPR.Jobs.Row
import AutoPR.Library.Like
import AutoPR.Library.Python

/-! The search of the job list. A search term is quoted for a LIKE pattern and looked for in some
columns, whatever the case of its letters. -/
namespace AutoPR.Api
open Python Like

def replaceChar (c : Char) (new s : String) : String :=
  String.ofList (s.toList.flatMap fun d => if d = c then new.toList else [d])

/-- `_like`: the pattern for a search term. -/
def like (term : String) : String :=
  "%" ++ replaceChar '_' "\\_" (replaceChar '%' "\\%" (replaceChar '\\' "\\\\" term)) ++ "%"

def sqlWildcards : Wildcards Char where
  many := '%'
  one := '_'
  escape := '\\'
  many_ne_escape := by decide
  one_ne_escape := by decide
  many_ne_one := by decide

/-- How the database lowers a text, character by character. The special characters of a pattern
are no letters. -/
structure CaseFold where
  fold : Char → List Char
  fold_special : ∀ c, sqlWildcards.special c = true → fold c = [c]
  fold_plain : ∀ c, sqlWildcards.special c = false → ∀ d ∈ fold c, sqlWildcards.special d = false

theorem eq_of_toLower {c d : Char} (hd : d.toNat < 97) (h : c.toLower = d) : c = d := by
  unfold Char.toLower at h
  split at h
  · rename_i hupper
    have hval := congrArg (fun e : Char => e.val.toNat) h
    have hlow : 65 ≤ c.val.toNat := hupper.1
    have hhigh : c.val.toNat ≤ 90 := hupper.2
    simp only [UInt32.toNat_add] at hval
    change (c.val.toNat + 32) % 2 ^ 32 = d.toNat at hval
    omega
  · exact h

/-- The letters of ASCII, as SQLite lowers them. -/
def CaseFold.ascii : CaseFold where
  fold c := [c.toLower]
  fold_special c h := by
    unfold Wildcards.special sqlWildcards at h
    simp only [Bool.or_eq_true, decide_eq_true_iff] at h
    rcases h with (rfl | rfl) | rfl <;> rfl
  fold_plain c h d hd := by
    rw [List.mem_singleton.mp hd]
    rw [Bool.eq_false_iff] at h ⊢
    intro hspecial
    have hlow : c.toLower.toNat < 97 := by
      unfold Wildcards.special sqlWildcards at hspecial
      simp only [Bool.or_eq_true, decide_eq_true_iff] at hspecial
      rcases hspecial with (heq | heq) | heq <;> rw [heq] <;> decide
    rw [← eq_of_toLower hlow rfl] at hspecial
    exact h hspecial

def CaseFold.lower (f : CaseFold) (s : String) : List Char := s.toList.flatMap f.fold

/-- `text.ilike(pattern, escape="\\")`. -/
def ilike (f : CaseFold) (text pattern : String) : Option Bool :=
  sqlWildcards.like (f.lower text) (f.lower pattern)

/-- A row is in the list if one of the columns holds the term; without one every row is. -/
def qMatches (f : CaseFold) (q : Option String) (columns : List String) : Bool :=
  q.getD "" = "" || columns.any fun text => ilike f text (like (strip (q.getD ""))) = some true

def jobMatches (f : CaseFold) (q : Option String) (job : Jobs.PRJob) : Bool :=
  qMatches f q [job.repo, job.commitSha, job.event]

theorem toList_like (term : String) : (like term).toList = sqlWildcards.anywhere term.toList := by
  have hchar : ∀ c : Char,
      (if c = '\\' then "\\\\".toList else [c]).flatMap (fun d =>
        (if d = '%' then "\\%".toList else [d]).flatMap fun d =>
          if d = '_' then "\\_".toList else [d]) =
        if sqlWildcards.special c then [sqlWildcards.escape, c] else [c] := by
    intro c
    by_cases hescape : c = '\\'
    · subst hescape
      rfl
    · by_cases hmany : c = '%'
      · subst hmany
        rfl
      · by_cases hone : c = '_'
        · subst hone
          rfl
        · simp [Wildcards.special, sqlWildcards, hescape, hmany, hone]
  unfold like replaceChar Wildcards.anywhere Wildcards.quote
  simp only [String.toList_append, String.toList_ofList, List.flatMap_assoc, hchar]
  rfl

theorem CaseFold.lower_quote (f : CaseFold) (text : List Char) :
    (sqlWildcards.quote text).flatMap f.fold = sqlWildcards.quote (text.flatMap f.fold) := by
  unfold Wildcards.quote
  rw [List.flatMap_assoc, List.flatMap_assoc]
  congr 1
  funext c
  cases hc : sqlWildcards.special c with
  | true =>
    have hescape : f.fold sqlWildcards.escape = [sqlWildcards.escape] := f.fold_special _ rfl
    rw [if_pos rfl, f.fold_special c hc, List.flatMap_cons, List.flatMap_singleton, hescape,
      f.fold_special c hc, List.flatMap_singleton, hc]
    rfl
  | false =>
    have hplain : (f.fold c).flatMap (fun d => if sqlWildcards.special d then
        [sqlWildcards.escape, d] else [d]) = (f.fold c).flatMap fun d => [d] := by
      apply List.flatMap_congr
      intro d hd
      rw [f.fold_plain c hc d hd]
      rfl
    rw [if_neg Bool.false_ne_true, List.flatMap_singleton, hplain, List.flatMap_singleton']

/-- ILIKE finds a search term exactly in the texts that contain it, up to the case. -/
theorem ilike_like_iff (f : CaseFold) (term text : String) :
    ilike f text (like term) = some true ↔ f.lower term <:+: f.lower text := by
  have hmany : f.fold sqlWildcards.many = [sqlWildcards.many] := f.fold_special _ rfl
  have hpattern : f.lower (like term) = sqlWildcards.anywhere (f.lower term) := by
    unfold CaseFold.lower
    rw [toList_like, Wildcards.anywhere, List.flatMap_cons, List.flatMap_append, hmany,
      CaseFold.lower_quote, List.flatMap_singleton, hmany]
    rfl
  unfold ilike
  rw [hpattern, Wildcards.like_anywhere]

theorem jobMatches_iff (f : CaseFold) (q : String) (job : Jobs.PRJob) :
    jobMatches f (some q) job = true ↔ q = "" ∨
      f.lower (strip q) <:+: f.lower job.repo ∨ f.lower (strip q) <:+: f.lower job.commitSha ∨
        f.lower (strip q) <:+: f.lower job.event := by
  unfold jobMatches qMatches
  simp only [Option.getD_some, Bool.or_eq_true, decide_eq_true_eq, List.any_cons, List.any_nil,
    Bool.or_false, ilike_like_iff]

example : ilike .ascii "acme/api-v2" (like "API_") = some false := by decide

end AutoPR.Api
