import AutoPR.Sandbox.Context

/-! Which lists of files are written below `root/repo` and nowhere else. -/
namespace AutoPR.Sandbox
open Posix FileTree

variable {host : Host} {root p : Path} {rel : Text} {content patch : String} {disk : Disk}
  {files before after : List (Text × String)} {earlier : List Path}

theorem Inside.lookalike (h : Inside root p) : Lookalike root p := by
  obtain ⟨name, rest, rfl⟩ := h
  exact ⟨repoName, name :: rest, rfl, List.prefix_refl _⟩

theorem patch_not_lookalike : ¬ Lookalike root (root ++ [patchName]) := by
  rintro ⟨name, rest, heq, hle⟩
  have hname : [patchName] = name :: rest := List.append_cancel_left heq
  cases hname
  exact absurd hle (by decide)

theorem repoDir_eq (hplain : host.links.PlainBelow root) : host.repoDir root = root ++ [repoName] :=
  hplain root repoName (List.prefix_refl root)

theorem passes_iff (hplain : host.links.PlainBelow root) {dest : Path} :
    (render (host.repoDir root)).isPrefixOf (render dest) = true ↔ Lookalike root dest := by
  rw [List.isPrefixOf_iff_prefix, repoDir_eq hplain, render_prefix_iff]
  rfl

theorem writeFile_ok (hplain : host.links.PlainBelow root) :
    (host.writeFile root rel content disk).2 = .ok () ↔
      ∃ dest, resolve host.links (host.repoDir root) rel = some dest ∧ Lookalike root dest ∧
        (disk.save host.accepts dest content).2 = true := by
  unfold Host.writeFile
  cases hdest : resolve host.links (host.repoDir root) rel with
  | none => simp
  | some dest =>
    simp only [Option.some.injEq, exists_eq_left']
    split
    · rename_i hpass
      rw [and_iff_right ((passes_iff hplain).mp hpass)]
      cases hsave : disk.save host.accepts dest content with
      | mk saved ok => cases ok <;> simp
    · rename_i hpass
      simp [mt (passes_iff hplain).mpr hpass]

theorem writeFile_disk (hplain : host.links.PlainBelow root) {dest : Path}
    (hdest : resolve host.links (host.repoDir root) rel = some dest) (hpass : Lookalike root dest) :
    (host.writeFile root rel content disk).1 = (disk.save host.accepts dest content).1 := by
  unfold Host.writeFile
  rw [hdest]
  dsimp only
  rw [if_pos ((passes_iff hplain).mpr hpass)]
  cases hsave : disk.save host.accepts dest content with
  | mk saved ok => cases ok <;> rfl

theorem writeFile_valueError (hplain : host.links.PlainBelow root) {failure : Failure}
    (h : (host.writeFile root rel content disk).2 = .error failure) :
    failure.isValueError = true ↔ host.Refused root rel := by
  unfold Host.writeFile at h
  unfold Host.Refused
  cases hdest : resolve host.links (host.repoDir root) rel with
  | none =>
    rw [hdest] at h
    cases h
    simp [Failure.isValueError]
  | some dest =>
    rw [hdest] at h
    dsimp only at h
    simp only [Option.some.injEq, forall_eq']
    split at h
    · rename_i hpass
      have hlook := (passes_iff hplain).mp hpass
      cases hsave : disk.save host.accepts dest content with
      | mk saved ok =>
        rw [hsave] at h
        cases ok with
        | true => cases h
        | false =>
          cases h
          simp [Failure.isValueError, hlook]
    · rename_i hpass
      cases h
      simp [Failure.isValueError, mt (passes_iff hplain).mpr hpass]

theorem writeFile_refused (hplain : host.links.PlainBelow root) (h : host.Refused root rel) :
    ∃ failure, host.writeFile root rel content disk = (disk, .error failure) ∧
      failure.isValueError = true := by
  unfold Host.writeFile
  cases hdest : resolve host.links (host.repoDir root) rel with
  | none => exact ⟨_, rfl, rfl⟩
  | some dest =>
    dsimp only
    rw [if_neg (mt (passes_iff hplain).mp (h dest hdest))]
    exact ⟨_, rfl, rfl⟩

theorem writeFiles_cons_ok {f : Text × String} (h : (host.writeFile root f.1 f.2 disk).2 = .ok ()) :
    host.writeFiles root (f :: files) disk =
      host.writeFiles root files (host.writeFile root f.1 f.2 disk).1 := by
  rw [Host.writeFiles]
  cases hfile : host.writeFile root f.1 f.2 disk with
  | mk next result =>
    rw [hfile] at h
    cases h
    rfl

theorem writeFiles_cons_error {f : Text × String} {failure : Failure}
    (h : (host.writeFile root f.1 f.2 disk).2 = .error failure) :
    host.writeFiles root (f :: files) disk =
      ((host.writeFile root f.1 f.2 disk).1, .error failure) := by
  rw [Host.writeFiles]
  cases hfile : host.writeFile root f.1 f.2 disk with
  | mk next result =>
    rw [hfile] at h
    cases h
    rfl

theorem writeFiles_append (h : (host.writeFiles root before disk).2 = .ok ()) :
    host.writeFiles root (before ++ after) disk =
      host.writeFiles root after (host.writeFiles root before disk).1 := by
  induction before generalizing disk with
  | nil => rfl
  | cons f before ih =>
    cases hfile : (host.writeFile root f.1 f.2 disk).2 with
    | error failure =>
      rw [writeFiles_cons_error hfile] at h
      cases h
    | ok _ =>
      rw [List.cons_append, writeFiles_cons_ok hfile, writeFiles_cons_ok hfile]
      rw [writeFiles_cons_ok hfile] at h
      exact ih h

theorem writeFiles_fit (hplain : host.links.PlainBelow root)
    (hdisk : Holds host.accepts (root ++ [repoName]) earlier disk) {dests : List Path}
    (hdests : (files.map fun f => resolve host.links (host.repoDir root) f.1) = dests.map some)
    (hlook : ∀ dest ∈ dests, Lookalike root dest)
    (hfit : AllFit host.accepts (root ++ [repoName]) earlier dests) :
    (host.writeFiles root files disk).2 = .ok () ∧
      Holds host.accepts (root ++ [repoName]) (dests.reverse ++ earlier)
        (host.writeFiles root files disk).1 := by
  induction files generalizing disk earlier dests with
  | nil =>
    cases dests with
    | nil => exact ⟨rfl, hdisk⟩
    | cons dest dests => cases hdests
  | cons f rest ih =>
    cases dests with
    | nil => cases hdests
    | cons dest dests =>
      obtain ⟨hdest, hrest⟩ := List.cons.inj hdests
      obtain ⟨hfirst, hlooks⟩ := List.forall_mem_cons.mp hlook
      have hsave : (disk.save host.accepts dest f.2).2 = true := hdisk.save_iff.mpr hfit.1
      have hnext := hdisk.save hsave
      rw [← writeFile_disk hplain hdest hfirst] at hnext
      have hfile := (writeFile_ok hplain).mpr ⟨dest, hdest, hfirst, hsave⟩
      rw [writeFiles_cons_ok hfile, List.reverse_cons, List.append_assoc]
      exact ih hnext hrest hlooks hfit.2

theorem writeFiles_ok (hplain : host.links.PlainBelow root)
    (hdisk : Holds host.accepts (root ++ [repoName]) earlier disk)
    (h : (host.writeFiles root files disk).2 = .ok ()) :
    ∃ dests : List Path,
      (files.map fun f => resolve host.links (host.repoDir root) f.1) = dests.map some ∧
      (∀ dest ∈ dests, Lookalike root dest) ∧
      AllFit host.accepts (root ++ [repoName]) earlier dests := by
  induction files generalizing disk earlier with
  | nil =>
    refine ⟨[], rfl, ?_, trivial⟩
    intro dest hmem
    cases hmem
  | cons f rest ih =>
    cases hfile : (host.writeFile root f.1 f.2 disk).2 with
    | error failure =>
      rw [writeFiles_cons_error hfile] at h
      cases h
    | ok _ =>
      obtain ⟨dest, hdest, hlook, hsave⟩ := (writeFile_ok hplain).mp hfile
      have hnext := hdisk.save hsave
      rw [← writeFile_disk hplain hdest hlook] at hnext
      rw [writeFiles_cons_ok hfile] at h
      obtain ⟨dests, hdests, hlooks, hfit⟩ := ih hnext h
      refine ⟨dest :: dests, ?_, ?_, hdisk.save_iff.mp hsave, hfit⟩
      · rw [List.map_cons, List.map_cons, hdest, hdests]
      · exact List.forall_mem_cons.mpr ⟨hlook, hlooks⟩

theorem writeFiles_error {failure : Failure} (h : (host.writeFiles root files disk).2 = .error failure) :
    ∃ before f after, files = before ++ f :: after ∧
      (host.writeFiles root before disk).2 = .ok () ∧
      (host.writeFile root f.1 f.2 (host.writeFiles root before disk).1).2 = .error failure ∧
      (host.writeFiles root files disk).1 =
        (host.writeFile root f.1 f.2 (host.writeFiles root before disk).1).1 := by
  induction files generalizing disk with
  | nil => cases h
  | cons f rest ih =>
    cases hfile : (host.writeFile root f.1 f.2 disk).2 with
    | error failure' =>
      rw [writeFiles_cons_error hfile] at h
      cases h
      refine ⟨[], f, rest, rfl, rfl, hfile, ?_⟩
      rw [writeFiles_cons_error hfile]
      rfl
    | ok _ =>
      rw [writeFiles_cons_ok hfile] at h
      obtain ⟨before, g, after, rfl, hbefore, hstop, hdisk⟩ := ih h
      refine ⟨f :: before, g, after, rfl, ?_⟩
      rw [writeFiles_cons_ok hfile, writeFiles_cons_ok hfile]
      exact ⟨hbefore, hstop, hdisk⟩

theorem writeFile_file (hplain : host.links.PlainBelow root)
    (h : (host.writeFile root rel content disk).1.IsFile p) :
    disk.IsFile p ∨ Lookalike root p ∧ resolve host.links (host.repoDir root) rel = some p := by
  by_cases hrefused : host.Refused root rel
  · obtain ⟨failure, hfile, -⟩ := @writeFile_refused host root rel content disk hplain hrefused
    rw [hfile] at h
    exact .inl h
  · unfold Host.Refused at hrefused
    push Not at hrefused
    obtain ⟨dest, hdest, hlook⟩ := hrefused
    rw [writeFile_disk hplain hdest hlook] at h
    obtain hold | rfl := save_file h
    · exact .inl hold
    · exact .inr ⟨hlook, hdest⟩

theorem writeFiles_file (hplain : host.links.PlainBelow root)
    (h : (host.writeFiles root files disk).1.IsFile p) :
    disk.IsFile p ∨ Lookalike root p ∧
      ∃ f ∈ files, resolve host.links (host.repoDir root) f.1 = some p := by
  induction files generalizing disk with
  | nil => exact .inl h
  | cons f rest ih =>
    have hfirst : (host.writeFile root f.1 f.2 disk).1.IsFile p → disk.IsFile p ∨ Lookalike root p ∧
        ∃ g ∈ f :: rest, resolve host.links (host.repoDir root) g.1 = some p := by
      intro hfile
      obtain hold | ⟨hlook, hdest⟩ := writeFile_file hplain hfile
      · exact .inl hold
      · exact .inr ⟨hlook, f, List.mem_cons_self, hdest⟩
    cases hfile : (host.writeFile root f.1 f.2 disk).2 with
    | error failure =>
      rw [writeFiles_cons_error hfile] at h
      exact hfirst h
    | ok _ =>
      rw [writeFiles_cons_ok hfile] at h
      obtain hnext | ⟨hlook, g, hg, hdest⟩ := ih h
      · exact hfirst hnext
      · exact .inr ⟨hlook, g, List.mem_cons_of_mem f hg, hdest⟩

/-- The disk with the empty `repo` directory. -/
def Host.emptyRepo (host : Host) (root : Path) : Disk :=
  ((Tree.fresh root).makeDirs host.accepts [] (root ++ [repoName])).1

theorem mkdir_ok : ((Tree.fresh root : Disk).makeDirs host.accepts [] (root ++ [repoName])).2 = true ↔
    host.accepts (root ++ [repoName]) = true := by
  rw [makeDirs_iff]
  unfold Tree.Passable Tree.IsFile Tree.fresh
  constructor
  · intro h
    apply (h (root ++ [repoName]) (by simp) (List.prefix_refl _)).2
    rw [List.nil_append]
    apply if_neg
    intro hle
    have hlength := hle.length_le
    rw [List.length_append, List.length_singleton] at hlength
    omega
  · intro hacc q _ hq
    rw [List.nil_append]
    obtain rfl | hle := List.prefix_concat_iff.mp hq
    · constructor
      · split <;> simp
      · exact fun _ => hacc
    · simp [hle]

theorem emptyRepo_holds (hacc : host.accepts (root ++ [repoName]) = true) :
    Holds host.accepts (root ++ [repoName]) [] (host.emptyRepo root) :=
  Holds.fresh.descend (mkdir_ok.mpr hacc)

theorem emptyRepo_file : ¬ (host.emptyRepo root).IsFile p := by
  intro hp
  have hnone := ((@Holds.fresh Name String _ host.accepts root).file_iff p).mp (makeDirs_file.mp hp)
  cases hnone

theorem freshContext_full (hacc : host.accepts (root ++ [repoName]) = false) :
    host.freshContext root files patch = (host.emptyRepo root, .error .osError) := by
  have hmade := mt mkdir_ok.mp (Bool.eq_false_iff.mp hacc)
  unfold Host.freshContext Host.writeContext Host.emptyRepo
  cases hdirs : (Tree.fresh root : Disk).makeDirs host.accepts [] (root ++ [repoName]) with
  | mk made ok =>
    rw [hdirs] at hmade
    cases ok with
    | true => exact absurd rfl hmade
    | false => rfl

theorem freshContext_eq (hacc : host.accepts (root ++ [repoName]) = true) :
    host.freshContext root files patch =
      match host.writeFiles root files (host.emptyRepo root) with
      | (written, .error failure) => (written, .error failure)
      | (written, .ok ()) =>
          match written.write host.accepts (root ++ [patchName]) (withNewline patch) with
          | (after, true) => (after, .ok ())
          | (after, false) => (after, .error .osError) := by
  have hmade := mkdir_ok.mpr hacc
  unfold Host.freshContext Host.writeContext Host.emptyRepo
  cases hdirs : (Tree.fresh root : Disk).makeDirs host.accepts [] (root ++ [repoName]) with
  | mk made ok =>
    rw [hdirs] at hmade
    cases hmade
    rfl

theorem freshContext_error (hacc : host.accepts (root ++ [repoName]) = true) {failure : Failure}
    (h : (host.writeFiles root files (host.emptyRepo root)).2 = .error failure) :
    host.freshContext root files patch =
      ((host.writeFiles root files (host.emptyRepo root)).1, .error failure) := by
  rw [freshContext_eq hacc]
  cases hloop : host.writeFiles root files (host.emptyRepo root) with
  | mk written result =>
    rw [hloop] at h
    cases h
    rfl

theorem freshContext_ok (hacc : host.accepts (root ++ [repoName]) = true)
    (h : (host.writeFiles root files (host.emptyRepo root)).2 = .ok ()) :
    ((host.freshContext root files patch).1.IsFile p →
      (host.writeFiles root files (host.emptyRepo root)).1.IsFile p ∨ p = root ++ [patchName]) ∧
    ∀ failure, (host.freshContext root files patch).2 = .error failure → failure = .osError := by
  rw [freshContext_eq hacc]
  cases hloop : host.writeFiles root files (host.emptyRepo root) with
  | mk written result =>
    rw [hloop] at h
    cases h
    dsimp only
    cases hpatch : written.write host.accepts (root ++ [patchName]) (withNewline patch) with
    | mk after ok =>
      have hfile := @write_file Name String _ host.accepts (root ++ [patchName]) p written
        (withNewline patch)
      rw [hpatch] at hfile
      cases ok with
      | true => exact ⟨hfile, fun failure heq => nomatch heq⟩
      | false =>
        refine ⟨hfile, fun failure heq => ?_⟩
        cases heq
        rfl

theorem freshContext_file (hplain : host.links.PlainBelow root)
    (h : (host.freshContext root files patch).1.IsFile p) :
    p = root ++ [patchName] ∨ Lookalike root p ∧
      ∃ f ∈ files, resolve host.links (host.repoDir root) f.1 = some p := by
  cases hacc : host.accepts (root ++ [repoName]) with
  | false =>
    rw [freshContext_full hacc] at h
    exact absurd h emptyRepo_file
  | true =>
    have hloop : (host.writeFiles root files (host.emptyRepo root)).1.IsFile p →
        Lookalike root p ∧ ∃ f ∈ files, resolve host.links (host.repoDir root) f.1 = some p := by
      intro hfile
      obtain hold | hnew := writeFiles_file hplain hfile
      · cases ((emptyRepo_holds hacc).file_iff p).mp hold
      · exact hnew
    cases hresult : (host.writeFiles root files (host.emptyRepo root)).2 with
    | error failure =>
      rw [freshContext_error hacc hresult] at h
      exact .inr (hloop h)
    | ok _ =>
      obtain hfile | hpatch := (freshContext_ok hacc hresult).1 h
      · exact .inr (hloop hfile)
      · exact .inl hpatch

theorem contains_of_guarded (hplain : host.links.PlainBelow root)
    (h : host.Guarded root files) : host.Contains root files patch := by
  obtain hnone | ⟨hacc, before, f, after, rfl, ⟨dests, hdests, hinside, hfit⟩, hrefused⟩ := h
  · constructor
    · intro p hp
      obtain hpatch | ⟨-, f, hf, hdest⟩ := freshContext_file hplain hp
      · exact .inl hpatch
      · right
        by_contra hout
        exact hnone f hf ⟨p, hdest, hout⟩
    · rintro ⟨f, hf, hescapes⟩
      exact absurd hescapes (hnone f hf)
  · have hlook : ∀ dest ∈ dests, Lookalike root dest := fun dest hmem => (hinside dest hmem).lookalike
    obtain ⟨hloop, hholds⟩ := writeFiles_fit hplain (emptyRepo_holds hacc) hdests hlook hfit
    obtain ⟨failure, hstop, hvalue⟩ :=
      @writeFile_refused host root f.1 f.2 (host.writeFiles root before (host.emptyRepo root)).1
        hplain hrefused
    have hcons := @writeFiles_cons_error host root
      (host.writeFiles root before (host.emptyRepo root)).1 after f failure (by rw [hstop])
    rw [hstop, ← writeFiles_append hloop] at hcons
    have hrun := @freshContext_error host root patch _ hacc failure (by rw [hcons])
    rw [hcons] at hrun
    have hfile : ∀ p, (host.freshContext root (before ++ f :: after) patch).1.IsFile p →
        Inside root p := by
      intro p hp
      rw [hrun] at hp
      have hmem := (hholds.file_iff p).mp hp
      rw [List.append_nil, List.mem_reverse] at hmem
      exact hinside p hmem
    constructor
    · exact fun p hp => .inr (hfile p hp)
    · intro _
      refine ⟨⟨failure, ?_, hvalue⟩, fun g _ dest _ hout hp => hout (hfile dest hp)⟩
      rw [hrun]

theorem guarded_of_contains (hplain : host.links.PlainBelow root)
    (h : host.Contains root files patch) : host.Guarded root files := by
  obtain ⟨hfiles, hescape⟩ := h
  by_cases hnone : ∀ f ∈ files, ¬ host.Escapes root f.1
  · exact .inl hnone
  right
  push Not at hnone
  obtain ⟨⟨failure, hfailure, hvalue⟩, -⟩ := hescape hnone
  cases hacc : host.accepts (root ++ [repoName]) with
  | false =>
    rw [freshContext_full hacc] at hfailure
    cases hfailure
    cases hvalue
  | true =>
    cases hloop : (host.writeFiles root files (host.emptyRepo root)).2 with
    | ok _ =>
      rw [(freshContext_ok (p := root) hacc hloop).2 failure hfailure] at hvalue
      cases hvalue
    | error failure' =>
      have hrun := @freshContext_error host root patch _ hacc failure' hloop
      rw [hrun] at hfailure hfiles
      cases hfailure
      obtain ⟨before, f, after, rfl, hbefore, hstop, hdisk⟩ := writeFiles_error hloop
      have hrefused := (writeFile_valueError hplain hstop).mp hvalue
      obtain ⟨dests, hdests, hlook, hfit⟩ := writeFiles_ok hplain (emptyRepo_holds hacc) hbefore
      obtain ⟨-, hholds⟩ := writeFiles_fit hplain (emptyRepo_holds hacc) hdests hlook hfit
      refine ⟨rfl, before, f, after, rfl, ⟨dests, hdests, ?_, hfit⟩, hrefused⟩
      intro dest hmem
      obtain ⟨failure'', hsame, -⟩ := @writeFile_refused host root f.1 f.2
        (host.writeFiles root before (host.emptyRepo root)).1 hplain hrefused
      rw [hsame] at hdisk
      have hp := (hholds.file_iff dest).mpr (List.mem_append_left _ (List.mem_reverse.mpr hmem))
      rw [← hdisk] at hp
      obtain rfl | hinside := hfiles dest hp
      · exact absurd (hlook _ hmem) patch_not_lookalike
      · exact hinside

/-- The context is contained if and only if no path leads out of `root/repo`, or the loop is
stopped, before it meets a path that leads out unseen, by one that is refused. -/
theorem contains_iff (hplain : host.links.PlainBelow root) :
    host.Contains root files patch ↔ host.Guarded root files :=
  ⟨guarded_of_contains hplain, contains_of_guarded hplain⟩

/-- No links at all, and room for everything. -/
def Host.roomy : Host where
  links dir name := dir ++ [name]
  accepts _ := true

def contextDir : Path := [⟨text "autopr-sbx-1", by decide⟩]

theorem contains_iff_roomy : Host.roomy.Contains contextDir [(text "../../etc/x", "1")] "" ↔
    Host.roomy.Guarded contextDir [(text "../../etc/x", "1")] :=
  contains_iff fun _ _ _ => rfl

/-- A directory beside `repo` whose name goes on after `repo`. -/
theorem sibling_written :
    ¬ Host.roomy.Contains contextDir [(text "../repository/x", "1")] "" := by
  rintro ⟨hfiles, -⟩
  have hwritten : (Host.roomy.freshContext contextDir [(text "../repository/x", "1")] "").1.IsFile
      (contextDir ++ [⟨text "repository", by decide⟩, ⟨text "x", by decide⟩]) :=
    ⟨"1", by decide⟩
  obtain hpatch | ⟨name, rest, hinside⟩ := hfiles _ hwritten
  · exact absurd hpatch (by decide)
  · obtain ⟨hname, -⟩ := List.cons.inj (List.append_cancel_left hinside)
    have hne : text "repository" ≠ repoName.val := by decide
    exact hne (congrArg Subtype.val hname)

end AutoPR.Sandbox
