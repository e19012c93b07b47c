import AutoPR.Library.Joined
import AutoPR.Pipeline.Agents

/-! The changed files as the reviewer's prompt shows them, under a budget of characters. A file
that does not fit is cut and marked. A file that fits exactly ends the loop, so that what comes
after it is left out without a mark. -/
namespace AutoPR.Pipeline
open Python AutoPR.Joined

/-- A changed file as the agents get it, a dict of strings. -/
abbrev FileDict := List (String × String)

def FileDict.get (f : FileDict) (key default : String) : String := (f.lookup key).getD default

/-- The dict that the handler makes of a file that the host lists. -/
def ChangedFile.dict (f : ChangedFile) : FileDict := [("path", f.path), ("patch", f.patch)]

@[simp] theorem ChangedFile.dict_path (f : ChangedFile) (default : String) :
    f.dict.get "path" default = f.path := by
  simp [FileDict.get, ChangedFile.dict]

@[simp] theorem ChangedFile.dict_patch (f : ChangedFile) (default : String) :
    f.dict.get "patch" default = f.patch := by
  simp [FileDict.get, ChangedFile.dict, List.lookup_cons]

def sliceTo (n : Int) (s : String) : String :=
  takeFirst (if 0 ≤ n then n else n + s.length).toNat s

def truncationMark : String := "\n... (truncated)\n"

def fileBlock (f : FileDict) : String :=
  "### File: " ++ f.get "path" "unknown" ++ "\n```diff\n" ++ f.get "patch" "" ++ "\n```\n"

def fillBudget (budget : Int) : List String → List String
  | [] => []
  | block :: rest =>
      let block := if budget < block.length then sliceTo budget block ++ truncationMark else block
      if budget - block.length ≤ 0 then [block]
      else block :: fillBudget (budget - block.length) rest

def formatChangedFiles (files : List FileDict) (maxChars : Int) : String :=
  "\n".intercalate (fillBudget maxChars (files.map fileBlock))

/-- What the prompts of the agents show of a pull request; each leaves `max_chars` at its
default. -/
def promptFiles (state : PipelineState) : String :=
  formatChangedFiles (state.changedFiles.map ChangedFile.dict) 8000

def totalLength (blocks : List String) : Nat := (blocks.map String.length).sum

@[simp] theorem totalLength_nil : totalLength [] = 0 := rfl

@[simp] theorem totalLength_cons (block : String) (blocks : List String) :
    totalLength (block :: blocks) = block.length + totalLength blocks := rfl

@[simp] theorem totalLength_append (xs ys : List String) :
    totalLength (xs ++ ys) = totalLength xs + totalLength ys := by
  simp [totalLength]

/-- All blocks, with room to spare; those that use up the budget; or those before the cut and
the one that is cut. -/
inductive Filled (budget : Int) (blocks : List String) : List String → Prop
  | all (h : totalLength blocks < budget) : Filled budget blocks blocks
  | spent {whole rest : List String} (hsplit : blocks = whole ++ rest)
      (h : totalLength whole = budget) : Filled budget blocks whole
  | cut {whole rest : List String} {block : String} {n : Nat}
      (hsplit : blocks = whole ++ block :: rest) (h : (totalLength whole + n : Int) = budget)
      (hn : n < block.length) :
      Filled budget blocks (whole ++ [takeFirst n block ++ truncationMark])

theorem Filled.cons {budget : Int} {block : String} {blocks parts : List String}
    (h : Filled (budget - block.length) blocks parts) :
    Filled budget (block :: blocks) (block :: parts) := by
  cases h with
  | all h =>
    apply Filled.all
    rw [totalLength_cons]
    omega
  | @spent _ rest hsplit h =>
    have hcons : block :: blocks = (block :: parts) ++ rest := by rw [hsplit, List.cons_append]
    apply Filled.spent hcons
    rw [totalLength_cons]
    omega
  | @cut whole rest cutBlock n hsplit h hn =>
    have hcons : block :: blocks = (block :: whole) ++ cutBlock :: rest := by
      rw [hsplit, List.cons_append]
    apply Filled.cut hcons _ hn
    rw [totalLength_cons]
    omega

theorem fillBudget_filled {budget : Int} (hbudget : 0 < budget) (blocks : List String) :
    Filled budget blocks (fillBudget budget blocks) := by
  induction blocks generalizing budget with
  | nil => exact .all hbudget
  | cons block blocks ih =>
    unfold fillBudget
    by_cases hfits : budget < block.length
    · have hslice : sliceTo budget block = takeFirst budget.toNat block := by
        rw [sliceTo, if_pos (by omega)]
      have hlength : (takeFirst budget.toNat block).length = budget.toNat := by
        rw [takeFirst, String.length_ofList, List.length_take, String.length_toList]
        omega
      have hdone : budget - (sliceTo budget block ++ truncationMark).length ≤ 0 := by
        rw [hslice, String.length_append, hlength]
        omega
      have hsplit : block :: blocks = [] ++ block :: blocks := rfl
      simp only [if_pos hfits, if_pos hdone]
      rw [hslice]
      apply Filled.cut hsplit
      · rw [totalLength_nil]
        omega
      · omega
    · simp only [if_neg hfits]
      split
      · have hsplit : block :: blocks = [block] ++ blocks := rfl
        apply Filled.spent hsplit
        rw [totalLength_cons, totalLength_nil]
        omega
      · exact (ih (by omega)).cons

theorem fillBudget_spent {whole : List String} (hne : whole ≠ [])
    (hpos : ∀ block ∈ whole, 0 < block.length) (rest : List String) :
    fillBudget (totalLength whole) (whole ++ rest) = whole := by
  induction whole with
  | nil => exact absurd rfl hne
  | cons block whole ih =>
    have hfits : ¬ ((block.length + totalLength whole : ℕ) : Int) < block.length := by omega
    rw [List.cons_append, fillBudget, totalLength_cons]
    simp only [if_neg hfits]
    cases whole with
    | nil => exact if_pos (by simp)
    | cons next whole =>
      have hnext : 0 < next.length := hpos next (by simp)
      have hleft : ((block.length + totalLength (next :: whole) : ℕ) : Int) - block.length =
          totalLength (next :: whole) := by omega
      rw [hleft, if_neg (by rw [totalLength_cons]; omega)]
      rw [ih (List.cons_ne_nil _ _) fun b hb => hpos b (List.mem_cons_of_mem _ hb)]

theorem length_joined (parts : List String) :
    ("\n".intercalate parts).length = totalLength parts + (parts.length - 1) := by
  have hchars : ("\n".intercalate parts).toList = ['\n'].intercalate (parts.map String.toList) :=
    String.toList_intercalate
  have hlengths : (parts.map String.toList).map List.length = parts.map String.length := by
    rw [List.map_map]
    exact List.map_congr_left fun part _ => String.length_toList
  rw [← String.length_toList, hchars, length_intercalate, hlengths, List.length_map]
  rfl

def Marked (text : String) : Prop := truncationMark.toList <:+ text.toList

theorem joined_ends (parts : List String) (last : String) :
    last.toList <:+ ("\n".intercalate (parts ++ [last])).toList := by
  have hchars : ("\n".intercalate (parts ++ [last])).toList =
      ['\n'].intercalate ((parts ++ [last]).map String.toList) := String.toList_intercalate
  rw [hchars, List.map_append]
  exact suffix_intercalate _ _

theorem marked_cut (parts : List String) (cut : String) :
    Marked ("\n".intercalate (parts ++ [cut ++ truncationMark])) := by
  refine List.IsSuffix.trans ?_ (joined_ends parts (cut ++ truncationMark))
  rw [String.toList_append]
  exact List.suffix_append _ _

theorem not_marked_blocks {files : List FileDict} (hne : files ≠ []) :
    ¬ Marked ("\n".intercalate (files.map fileBlock)) := by
  intro hmark
  obtain ⟨front, last, rfl⟩ := (List.eq_nil_or_concat' files).resolve_left hne
  have hblock : ['`', '\n'] <:+ (fileBlock last).toList := by
    unfold fileBlock
    rw [String.toList_append]
    exact List.IsSuffix.trans ⟨"\n``".toList, by decide⟩ (List.suffix_append _ _)
  have hfence : ['`', '\n'] <:+
      ("\n".intercalate ((front ++ [last]).map fileBlock)).toList := by
    rw [List.map_append]
    exact hblock.trans (joined_ends _ _)
  have hclose : [')', '\n'] <:+
      ("\n".intercalate ((front ++ [last]).map fileBlock)).toList :=
    List.IsSuffix.trans ⟨"\n... (truncated".toList, by decide⟩ hmark
  have hsame := List.suffix_of_suffix_length_le hfence hclose (Nat.le_refl 2)
  exact absurd (hsame.eq_of_length rfl) (by decide)

/-- Blocks in order up to a cut, of which the last may be shortened and marked. -/
def UpToCut (blocks parts : List String) : Prop :=
  ∃ whole rest, blocks = whole ++ rest ∧ (parts = whole ∨ ∃ block tail n,
    rest = block :: tail ∧ n < block.length ∧
      parts = whole ++ [takeFirst n block ++ truncationMark])

/-- The text keeps to its budget and shows the files in order, and what is missing is marked. -/
structure NoSilentLoss (files : List FileDict) (maxChars : Int) : Prop where
  ordered : ∃ parts, formatChangedFiles files maxChars = "\n".intercalate parts ∧
    UpToCut (files.map fileBlock) parts ∧
    ((formatChangedFiles files maxChars).length : Int) ≤
      maxChars + truncationMark.length + (parts.length - 1 : ℕ)
  told : formatChangedFiles files maxChars = "\n".intercalate (files.map fileBlock) ∨
    Marked (formatChangedFiles files maxChars)

/-- Some of the first files, but not all, use up the budget exactly. -/
def EndsOnBoundary (files : List FileDict) (maxChars : Int) : Prop :=
  ∃ whole rest, files = whole ++ rest ∧ rest ≠ [] ∧
    (totalLength (whole.map fileBlock) : Int) = maxChars

variable {files : List FileDict} {maxChars : Int}

theorem Filled.upToCut {blocks parts : List String} (h : Filled maxChars blocks parts) :
    UpToCut blocks parts := by
  cases h with
  | all => exact ⟨blocks, [], (List.append_nil _).symm, .inl rfl⟩
  | spent hsplit => exact ⟨_, _, hsplit, .inl rfl⟩
  | cut hsplit _ hn => exact ⟨_, _, hsplit, .inr ⟨_, _, _, rfl, hn, rfl⟩⟩

theorem Filled.totalLength_le {blocks parts : List String} (h : Filled maxChars blocks parts) :
    (totalLength parts : Int) ≤ maxChars + truncationMark.length := by
  cases h with
  | all h => omega
  | spent _ h => omega
  | @cut whole rest block n _ h hn =>
    have hcut : (takeFirst n block).length = n := by
      rw [takeFirst, String.length_ofList, List.length_take, String.length_toList]
      omega
    rw [totalLength_append, totalLength_cons, totalLength_nil, String.length_append, hcut]
    omega

theorem formatChangedFiles_ordered (hmax : 0 < maxChars) (files : List FileDict) :
    ∃ parts, formatChangedFiles files maxChars = "\n".intercalate parts ∧
      UpToCut (files.map fileBlock) parts ∧
      ((formatChangedFiles files maxChars).length : Int) ≤
        maxChars + truncationMark.length + (parts.length - 1 : ℕ) := by
  have hfilled := fillBudget_filled hmax (files.map fileBlock)
  have htotal := hfilled.totalLength_le
  refine ⟨_, rfl, hfilled.upToCut, ?_⟩
  rw [formatChangedFiles, length_joined]
  omega

theorem fileBlock_length (f : FileDict) : (fileBlock f).length =
    24 + (f.get "path" "unknown").length + (f.get "patch" "").length := by
  have hheading : "### File: ".length = 10 := by decide
  have hopen : "\n```diff\n".length = 9 := by decide
  have hclose : "\n```\n".length = 5 := by decide
  unfold fileBlock
  simp only [String.length_append, hheading, hopen, hclose]
  omega

theorem formatChangedFiles_boundary {whole : List FileDict} (hmax : 0 < maxChars)
    (htotal : (totalLength (whole.map fileBlock) : Int) = maxChars) (rest : List FileDict) :
    formatChangedFiles (whole ++ rest) maxChars = "\n".intercalate (whole.map fileBlock) := by
  have hne : whole.map fileBlock ≠ [] := by
    intro h
    rw [h, totalLength_nil] at htotal
    omega
  unfold formatChangedFiles
  rw [List.map_append, ← htotal, fillBudget_spent hne]
  intro block hblock
  obtain ⟨f, _, rfl⟩ := List.mem_map.mp hblock
  rw [fileBlock_length]
  omega

theorem joined_ne {whole rest : List String} (hwhole : whole ≠ []) (hrest : rest ≠ []) :
    "\n".intercalate whole ≠ "\n".intercalate (whole ++ rest) := by
  intro h
  have hlength := congrArg String.length h
  have hwhole := List.length_pos_iff.mpr hwhole
  have hrest := List.length_pos_iff.mpr hrest
  rw [length_joined, length_joined, totalLength_append, List.length_append] at hlength
  omega

theorem EndsOnBoundary.silent (hmax : 0 < maxChars) (h : EndsOnBoundary files maxChars) :
    ¬ NoSilentLoss files maxChars := by
  rintro ⟨_, htold⟩
  obtain ⟨whole, rest, rfl, hrest, htotal⟩ := h
  have hwhole : whole ≠ [] := by
    rintro rfl
    rw [List.map_nil, totalLength_nil] at htotal
    omega
  rw [formatChangedFiles_boundary hmax htotal] at htold
  rcases htold with hall | hmarked
  · rw [List.map_append] at hall
    exact joined_ne (fun h => hwhole (List.map_eq_nil_iff.mp h))
      (fun h => hrest (List.map_eq_nil_iff.mp h)) hall
  · exact not_marked_blocks hwhole hmarked

theorem not_endsOnBoundary_of_fits (h : (totalLength (files.map fileBlock) : Int) < maxChars) :
    ¬ EndsOnBoundary files maxChars := by
  rintro ⟨whole, rest, rfl, _, htotal⟩
  rw [List.map_append, totalLength_append] at h
  omega

theorem noSilentLoss_of (hmax : 0 < maxChars) (files : List FileDict)
    (hboundary : ¬ EndsOnBoundary files maxChars) : NoSilentLoss files maxChars := by
  refine ⟨formatChangedFiles_ordered hmax files, ?_⟩
  have hfilled := fillBudget_filled hmax (files.map fileBlock)
  unfold formatChangedFiles
  generalize fillBudget maxChars (files.map fileBlock) = parts at hfilled
  cases hfilled with
  | all => exact .inl rfl
  | @spent _ rest hsplit htotal =>
    obtain ⟨whole, left, rfl, rfl, rfl⟩ := List.map_eq_append_iff.mp hsplit
    have hleft : left = [] := by
      by_contra hleft
      exact hboundary ⟨whole, left, rfl, hleft, htotal⟩
    rw [hleft, List.append_nil]
    exact .inl rfl
  | cut _ _ _ => exact .inr (marked_cut _ _)

/-- A changeset is shortened without a mark exactly where a block ends on the budget. -/
theorem noSilentLoss_iff (hmax : 0 < maxChars) (files : List FileDict) :
    NoSilentLoss files maxChars ↔ ¬ EndsOnBoundary files maxChars :=
  ⟨fun h hboundary => hboundary.silent hmax h, noSilentLoss_of hmax files⟩

theorem noSilentLoss_two_files :
    NoSilentLoss (List.map ChangedFile.dict [⟨"a.py", "+x = 1"⟩, ⟨"b.py", "-y"⟩]) 8000 :=
  (noSilentLoss_iff (by decide) _).mpr (not_endsOnBoundary_of_fits (by decide))

theorem silent_of_patch {patch : String} (hlength : patch.length = 7972) (next : ChangedFile) :
    ¬ NoSilentLoss (List.map ChangedFile.dict [⟨"a.py", patch⟩, next]) 8000 := by
  apply EndsOnBoundary.silent (by decide)
  refine ⟨[ChangedFile.dict ⟨"a.py", patch⟩], [next.dict], rfl, List.cons_ne_nil _ _, ?_⟩
  have hpath : "a.py".length = 4 := by decide
  rw [List.map_singleton, totalLength_cons, totalLength_nil, fileBlock_length,
    ChangedFile.dict_path, ChangedFile.dict_patch, hpath, hlength]
  rfl

theorem second_file_lost : ¬ NoSilentLoss (List.map ChangedFile.dict
    [⟨"a.py", String.ofList (List.replicate 7972 'x')⟩, ⟨"auth.py", "-check(user)"⟩]) 8000 := by
  apply silent_of_patch
  rw [String.length_ofList, List.length_replicate]

theorem promptFiles_told (state : PipelineState)
    (h : ¬ EndsOnBoundary (state.changedFiles.map ChangedFile.dict) 8000) :
    promptFiles state = "\n".intercalate
        (state.changedFiles.map fun f => fileBlock f.dict) ∨ Marked (promptFiles state) := by
  have htold := (noSilentLoss_of (by decide) _ h).told
  rwa [List.map_map] at htold

end AutoPR.Pipeline
