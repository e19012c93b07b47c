import AutoPR.Clients.Reads
import AutoPR.Library.Paging

/-! The loop that lists the files of a pull request, against any endpoint. It ends where a page is
not full, which an endpoint that serves one list comes to after as many pages as the list has. -/
namespace AutoPR.Clients
open Pipeline Paging

/-- An entry of a page. GitHub leaves out the patch of a binary file, or gives null. -/
structure FileEntry where
  filename : Option String
  patch : Option (Option String)
deriving DecidableEq

def FileEntry.file (f : FileEntry) : ChangedFile :=
  ⟨f.filename.getD "", (f.patch.getD (some "")).getD ""⟩

/-- `list_pull_files`, against an endpoint that answers with a page, with null, or not at all. -/
def listPullFiles (serve : ℕ → Option (Option (List FileEntry))) (fuel : ℕ) :
    Progress ChangedFile :=
  collect perPage FileEntry.file (fun page => (serve page).map (·.getD [])) fuel 1 []

/-- An endpoint that serves one list. -/
def endpoint (listing : List FileEntry) (page : ℕ) : Option (Option (List FileEntry)) :=
  (stable perPage listing page).map some

/-- The listing ends after one request for each full page and another one, and then every file is
there once, in order, without a null. -/
theorem listPullFiles_stable (listing : List FileEntry) (fuel : ℕ) :
    listPullFiles (endpoint listing) fuel =
      if listing.length / perPage < fuel then .returned (listing.map FileEntry.file)
      else .running := by
  have hserve : (fun page => (endpoint listing page).map (·.getD [])) = stable perPage listing := by
    funext page
    rfl
  unfold listPullFiles
  rw [hserve]
  exact collect_stable (by decide) fuel

def ListedFile.entry (f : ListedFile) : FileEntry := ⟨some f.filename, some f.patch⟩

theorem listPages_arrive (listing : List ListedFile) (k : ℕ) :
    listPages (fun _ => false) listing k =
      some ((listing.drop (perPage * k)).map ListedFile.changed) := by
  have hreturns : ∃ files, listPages (fun _ => false) listing k = some files := by
    induction k using listPages.induct (fun _ => false) listing with
    | case1 k hfails => cases hfails
    | case2 k hfails hlast =>
      rw [listPages, if_neg hfails]
      exact ⟨_, if_pos hlast⟩
    | case3 k hfails hfull ih =>
      obtain ⟨rest, hrest⟩ := ih
      rw [listPages, if_neg hfails]
      dsimp only
      rw [if_neg hfull, hrest]
      exact ⟨_, rfl⟩
  obtain ⟨files, hfiles⟩ := hreturns
  rw [hfiles, listPages_eq hfiles]

theorem listPullFiles_reader (listing : List ListedFile) (token : String) :
    ((Reader.http token).listPullFiles (fun _ => false) listing).map Progress.returned =
      some (listPullFiles (endpoint (listing.map ListedFile.entry))
        (listing.length / perPage + 1)) := by
  rw [listPullFiles_stable, List.length_map, if_pos (Nat.lt_succ_self _), List.map_map]
  change (listPages (fun _ => false) listing 0).map _ = _
  rw [listPages_arrive, Nat.mul_zero, List.drop_zero]
  rfl

end AutoPR.Clients
