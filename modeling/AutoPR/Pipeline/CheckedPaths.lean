import AutoPR.Pipeline.Verifier

/-! What a verification command makes of the names of changed files. They are put behind the
options without a mark that ends the options, so that a name with a dash is read as one. -/
namespace AutoPR.Pipeline
open Python

/-- A word that ruff and mypy read as an option. -/
def isOption (word : String) : Bool := word.toList.head? = some '-'

def ownWords (failureType : PyVal) : List String := (verificationCommand failureType []).getD []

/-- Every word that comes from a changed path is read as a file to check. -/
def PathsAreFiles (failureType : PyVal) (changedPaths : List String) : Prop :=
  ∀ argv, verificationCommand failureType changedPaths = some argv →
    ∀ word ∈ argv, word ∉ ownWords failureType → isOption word = false

/-- The checks that run on the changed files alone. -/
def isScoped (failureType : PyVal) : Bool :=
  failureType.eqStr "lint" || failureType.eqStr "type_error"

def scopedWords (failureType : PyVal) : List String :=
  if failureType.eqStr "lint" then ["ruff", "check"] else ["mypy", "--ignore-missing-imports"]

section
variable {failureType : PyVal} {changedPaths : List String}

theorem verificationCommand_scoped (h : isScoped failureType = true) :
    verificationCommand failureType changedPaths = some (scopedWords failureType ++
      if changedPaths.filter isPython = [] then ["."] else changedPaths.filter isPython) := by
  unfold verificationCommand scopedWords
  unfold isScoped at h
  cases hlint : failureType.eqStr "lint" with
  | true => rfl
  | false =>
    rw [hlint, Bool.false_or] at h
    dsimp only
    rw [h]
    rfl

theorem verificationCommand_unscoped (h : isScoped failureType = false) :
    verificationCommand failureType changedPaths = verificationCommand failureType [] := by
  unfold isScoped at h
  obtain ⟨hlint, htype⟩ := Bool.or_eq_false_iff.mp h
  unfold verificationCommand
  dsimp only
  rw [hlint, htype]
  rfl

theorem ownWords_scoped (h : isScoped failureType = true) :
    ownWords failureType = scopedWords failureType ++ ["."] := by
  unfold ownWords
  rw [verificationCommand_scoped h]
  rfl

theorem not_ownWord {path : String} (h : isScoped failureType = true)
    (hpath : isPython path = true) : path ∉ ownWords failureType := by
  have hwords : ∀ word ∈ scopedWords failureType ++ ["."], isPython word = false := by
    unfold scopedWords
    split <;> decide
  intro hmem
  rw [ownWords_scoped h] at hmem
  rw [hwords path hmem] at hpath
  cases hpath

theorem mem_command {path : String} (h : isScoped failureType = true) (hmem : path ∈ changedPaths)
    (hpath : isPython path = true) :
    ∃ argv, verificationCommand failureType changedPaths = some argv ∧ path ∈ argv := by
  have htaken : path ∈ changedPaths.filter isPython := List.mem_filter.mpr ⟨hmem, hpath⟩
  refine ⟨_, verificationCommand_scoped h, List.mem_append_right _ ?_⟩
  rwa [if_neg (List.ne_nil_of_mem htaken)]

theorem word_changed {argv : List String} {word : String} (h : isScoped failureType = true)
    (hargv : verificationCommand failureType changedPaths = some argv) (hword : word ∈ argv)
    (hforeign : word ∉ ownWords failureType) : word ∈ changedPaths ∧ isPython word = true := by
  rw [verificationCommand_scoped h] at hargv
  obtain rfl := Option.some.inj hargv
  rw [ownWords_scoped h, List.mem_append, not_or] at hforeign
  have htail := (List.mem_append.mp hword).resolve_left hforeign.1
  split at htail
  · exact absurd htail hforeign.2
  · exact List.mem_filter.mp htail

/-- Names are read as files exactly where the command takes none, or none of them begins with a
dash. -/
theorem pathsAreFiles_iff (failureType : PyVal) (changedPaths : List String) :
    PathsAreFiles failureType changedPaths ↔ isScoped failureType = false ∨
      ∀ path ∈ changedPaths, isPython path = true → isOption path = false := by
  cases hscoped : isScoped failureType with
  | false =>
    apply iff_of_true _ (.inl rfl)
    intro argv hargv word hword hforeign
    rw [verificationCommand_unscoped hscoped] at hargv
    rw [ownWords, hargv] at hforeign
    exact absurd hword hforeign
  | true =>
    constructor
    · intro h
      right
      intro path hmem hpath
      obtain ⟨argv, hargv, hword⟩ := mem_command hscoped hmem hpath
      exact h argv hargv path hword (not_ownWord hscoped hpath)
    · rintro (hfalse | hnames) argv hargv word hword hforeign
      · cases hfalse
      · obtain ⟨hmem, hpath⟩ := word_changed hscoped hargv hword hforeign
        exact hnames word hmem hpath

end

/-- A linter that is told to read its rules from a file of the pull request. -/
theorem config_from_pr : ¬ PathsAreFiles (.str "lint") ["--config=lax.py"] := by
  intro h
  obtain ⟨argv, hargv, hword⟩ := @mem_command (.str "lint") ["--config=lax.py"] "--config=lax.py"
    (by decide) List.mem_cons_self (by decide)
  have hfile := h argv hargv _ hword (not_ownWord (by decide) (by decide))
  exact absurd hfile (by decide)

end AutoPR.Pipeline
