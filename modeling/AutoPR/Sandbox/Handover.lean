import Mathlib.Algebra.Order.BigOperators.Group.List
import AutoPR.Sandbox.Completeness
import AutoPR.Sandbox.Containment

/-! What the snapshot of any archive is worth to the sandbox: it is bounded by the caps, and its
paths lead nowhere but below `root/repo`. -/
namespace AutoPR.Sandbox
open Posix FileTree

variable {caps : Caps} {sound : Bool} {out : List (Text × String)} {total : Int}
  {member : TarMember} {members rest : List TarMember} {archive : Archive} {found : List Found}
  {next : Found} {host : Host} {root p : Path} {rel : Text} {content patch : String} {disk : Disk}
  {files : List (Text × String)}

/-- The files of a snapshot touch nothing but `root/repo`, the patch apart, and none is refused. -/
structure Contained (host : Host) (root : Path) (patch : String) (files : List (Text × String)) :
    Prop where
  touches : ∀ p, (host.freshContext root files patch).1 p ≠ Tree.fresh root p →
    p = root ++ [patchName] ∨ root ++ [repoName] <+: p
  accepted : ∀ rel, (host.freshContext root files patch).2 ≠ .error (.unsafePath rel)

/-- What the sandbox may rely on. -/
structure HandedOver (caps : Caps) (archive : Archive) (host : Host) (root : Path) (patch : String)
    (files : List (Text × String)) : Prop extends Contained host root patch files where
  count : (files.length : Int) ≤ caps.maxFiles
  member : ∀ f ∈ files, ∃ member ∈ archive.members, member.isfile = true ∧
    (member.size.toNat : Int) ≤ caps.maxFileBytes ∧
    ∃ data, member.content = some data ∧ String.fromUTF8? data = some f.2
  weight : caps.exceeds (encodedSize files) = false

/-- A text that the stated sizes admit is within the caps. -/
def Honest (caps : Caps) (found : List Found) (member : TarMember) (_after : List TarMember) :
    Prop :=
  ∀ next, member.kept? caps = some next → caps.exceeds (stated found + member.size) = false →
    0 ≤ caps.maxFileBytes ∧ caps.exceeds (encodedSize (found.map (·.1) ++ [next.1])) = false

/-- The empty list is within the caps, and every text that is added to it. -/
def Caps.Admits (caps : Caps) (members : List TarMember) : Prop :=
  caps.exceeds 0 = false ∧ Throughout caps [] members (Honest caps)

def Caps.Fits (caps : Caps) (files : List (Text × String)) : Prop :=
  (files ≠ [] → 0 ≤ caps.maxFileBytes) ∧ caps.exceeds (encodedSize files) = false

theorem encodedSize_mono (h : out <+: files) : encodedSize out ≤ encodedSize files := by
  obtain ⟨more, rfl⟩ := h
  unfold encodedSize
  rw [List.map_append, List.sum_append]
  exact Nat.le_add_right _ _

theorem fits_mono (h : out <+: files) (hfits : caps.Fits files) : caps.Fits out := by
  obtain ⟨hbytes, hweight⟩ := hfits
  constructor
  · intro hne
    apply hbytes
    rintro rfl
    exact hne (List.prefix_nil.mp h)
  · by_contra hover
    rw [Bool.not_eq_false] at hover
    have hfull := exceeds_mono (Int.ofNat_le.mpr (encodedSize_mono h)) hover
    rw [hweight] at hfull
    cases hfull

theorem honest_iff (hkept : member.kept? caps = some next)
    (hfull : caps.exceeds (stated found + member.size) = false) :
    Honest caps found member rest ↔ caps.Fits (found.map (·.1) ++ [next.1]) := by
  constructor
  · intro h
    obtain ⟨hbytes, hweight⟩ := h next hkept hfull
    exact ⟨fun _ => hbytes, hweight⟩
  · rintro ⟨hbytes, hweight⟩ other hother -
    rw [hkept] at hother
    cases hother
    exact ⟨hbytes (by simp), hweight⟩

theorem honest_of_none (hkept : member.kept? caps = none) : Honest caps found member rest := by
  intro next hnext
  rw [hkept] at hnext
  cases hnext

theorem extract_fits_iff (hfits : caps.Fits (found.map (·.1)))
    (hroom : (found.length : Int) < caps.maxFiles)
    (h : extractRepoTarballFrom caps sound (found.map (·.1)) (stated found) members =
      some files) :
    caps.Fits files ↔ Throughout caps found members (Honest caps) := by
  induction members generalizing found with
  | nil =>
    unfold extractRepoTarballFrom at h
    split at h
    · cases h
      exact iff_of_true hfits throughout_nil
    · cases h
  | cons member rest ih =>
    cases hkept : member.kept? caps with
    | none =>
      by_cases hover : member.isCounted caps = true →
          caps.exceeds (stated found + member.size) = false
      · rw [throughout_skip hover hkept (honest_of_none hkept)]
        apply ih hfits hroom
        cases hcounted : member.isCounted caps with
        | false => rwa [extract_ignored hcounted] at h
        | true =>
          rw [extract_discarded hcounted hkept (hover hcounted)] at h
          split at h
          · cases h
          · exact h
      · push Not at hover
        obtain ⟨hcounted, hfull⟩ := hover
        rw [Bool.ne_false_iff] at hfull
        rw [extract_full hcounted hfull] at h
        cases h
        rw [throughout_stop hcounted hfull hroom]
        exact iff_of_true hfits (honest_of_none hkept)
    | some next =>
      cases hfull : caps.exceeds (stated found + member.size) with
      | true =>
        have hcounted := kept?_counted hkept
        rw [extract_full hcounted hfull] at h
        cases h
        rw [throughout_stop hcounted hfull hroom]
        refine iff_of_true hfits fun _ _ hno => ?_
        rw [hfull] at hno
        cases hno
      | false =>
        have hmap : found.map (·.1) ++ [next.1] = (found ++ [next]).map (·.1) := by
          rw [List.map_append, List.map_singleton]
        rw [extract_text hkept hfull, ← stated_snoc] at h
        rw [throughout_text hkept hfull hroom, honest_iff hkept hfull]
        by_cases hnext : caps.Fits (found.map (·.1) ++ [next.1])
        · rw [and_iff_right hnext]
          rw [hmap] at h hnext
          split at h
          · rename_i hlast
            cases h
            rw [List.length_map] at hlast
            exact iff_of_true hnext (throughout_closed hlast)
          · rename_i hmore
            rw [List.length_map] at hmore
            exact ih hnext (Int.not_le.mp hmore) h
        · have hlong : found.map (·.1) ++ [next.1] <+: files := by
            split at h
            · rw [Option.some.inj h]
            · exact extract_extends h
          exact iff_of_false (fun hall => hnext (fits_mono hlong hall)) fun hall => hnext hall.1

theorem extract_member {f : Text × String} (hf : f ∈ files)
    (h : extractRepoTarballFrom caps sound out total members = some files) :
    f ∈ out ∨ ∃ member ∈ members, ∃ size, member.kept? caps = some (f, size) := by
  induction members generalizing out total with
  | nil =>
    unfold extractRepoTarballFrom at h
    split at h
    · cases h
      exact .inl hf
    · cases h
  | cons member rest ih =>
    have hlater : (∃ member ∈ rest, ∃ size, member.kept? caps = some (f, size)) →
        ∃ other ∈ member :: rest, ∃ size, other.kept? caps = some (f, size) := by
      rintro ⟨other, hmem, hkept⟩
      exact ⟨other, List.mem_cons_of_mem _ hmem, hkept⟩
    obtain rfl | h | ⟨next, hkept, -, hnext⟩ := extract_cases h
    · exact .inl hf
    · exact (ih h).imp_right hlater
    · have hsnoc : f ∈ out ++ [next.1] →
          f ∈ out ∨ ∃ other ∈ member :: rest, ∃ size, other.kept? caps = some (f, size) := by
        intro hmem
        obtain hmem | hmem := List.mem_append.mp hmem
        · exact .inl hmem
        · rw [List.mem_singleton.mp hmem]
          exact .inr ⟨member, List.mem_cons_self, next.2, hkept⟩
      obtain rfl | ⟨-, h⟩ := hnext
      · exact hsnoc hf
      · exact (ih h).elim hsnoc fun hlate => .inr (hlater hlate)

theorem extract_count (hroom : (out.length : Int) < max 1 caps.maxFiles)
    (h : extractRepoTarballFrom caps sound out total members = some files) :
    (files.length : Int) ≤ max 1 caps.maxFiles := by
  induction members generalizing out total with
  | nil =>
    unfold extractRepoTarballFrom at h
    split at h
    · cases h
      exact hroom.le
    · cases h
  | cons member rest ih =>
    obtain rfl | h | ⟨next, -, -, rfl | ⟨hcount, h⟩⟩ := extract_cases h
    · exact hroom.le
    · exact ih hroom h
    · rw [List.length_append, List.length_singleton]
      push_cast
      omega
    · exact ih (lt_of_lt_of_le hcount (le_max_right _ _)) h

theorem handedOver_iff (hcontained : Contained host root patch files)
    (hcount : (files.length : Int) ≤ caps.maxFiles)
    (hmember : ∀ f ∈ files, ∃ member ∈ archive.members, ∃ size,
      member.kept? caps = some (f, size)) :
    HandedOver caps archive host root patch files ↔ caps.Fits files := by
  constructor
  · rintro ⟨-, -, hsmall, hweight⟩
    refine ⟨fun hne => ?_, hweight⟩
    obtain ⟨f, hf⟩ := List.exists_mem_of_ne_nil files hne
    obtain ⟨member, -, -, hsize, -⟩ := hsmall f hf
    omega
  · rintro ⟨hbytes, hweight⟩
    refine ⟨hcontained, hcount, fun f hf => ?_, hweight⟩
    obtain ⟨member, hmem, size, hkept⟩ := hmember f hf
    obtain ⟨hcounted, -, data, s, hdata, hdecode, heq⟩ := kept?_eq_some.mp hkept
    obtain ⟨hfile, hsize⟩ := isCounted_iff.mp hcounted
    have hnonneg := hbytes (List.ne_nil_of_mem hf)
    refine ⟨member, hmem, hfile, by omega, data, hdata, ?_⟩
    rw [hdecode, (Prod.mk.inj heq).1]

theorem foldlM_enter {links : Links} {base dir : Path} (hplain : links.PlainBelow base)
    (hdir : base <+: dir) {components : List Text} (h : [dot, dot] ∉ components) {dest : Path}
    (hdest : components.foldlM (enter links) dir = some dest) : dir <+: dest := by
  induction components generalizing dir with
  | nil =>
    cases hdest
    exact List.prefix_refl _
  | cons component rest ih =>
    have hup : component ≠ [dot, dot] := fun heq => h (heq ▸ List.mem_cons_self)
    have hrest : [dot, dot] ∉ rest := fun hmem => h (List.mem_cons_of_mem component hmem)
    rw [List.foldlM_cons] at hdest
    obtain ⟨next, hnext, hdest⟩ := Option.bind_eq_some_iff.mp hdest
    have hstep : dir <+: next := by
      unfold enter at hnext
      rw [if_neg hup] at hnext
      split at hnext
      · cases hnext
        exact List.prefix_refl _
      · obtain ⟨name, -, rfl⟩ := Option.map_eq_some_iff.mp hnext
        rw [hplain dir name hdir]
        exact List.prefix_append _ _
    exact hstep.trans (ih (hdir.trans hstep) hrest hdest)

theorem isSafeRel_below (hplain : host.links.PlainBelow root) (h : isSafeRel rel = true) {dest : Path}
    (hdest : resolve host.links (host.repoDir root) rel = some dest) :
    root ++ [repoName] <+: dest := by
  unfold isSafeRel at h
  simp only [Bool.and_eq_true, decide_eq_true_eq, Bool.not_eq_true'] at h
  obtain ⟨⟨-, hrelative⟩, hup⟩ := h
  unfold resolve at hdest
  rw [hrelative, if_neg Bool.false_ne_true, repoDir_eq hplain] at hdest
  exact foldlM_enter hplain (List.prefix_append _ _) hup hdest

/-- The directories down to `root/repo` are there. -/
def Based (root : Path) (disk : Disk) : Prop := ∀ p, p <+: root ++ [repoName] → disk p = some .dir

theorem writeFile_safe (hplain : host.links.PlainBelow root) (hsafe : isSafeRel rel = true)
    (hbased : Based root disk) :
    Based root (host.writeFile root rel content disk).1 ∧
      (∀ p, (host.writeFile root rel content disk).1 p ≠ disk p → root ++ [repoName] <+: p) ∧
      ∀ rel', (host.writeFile root rel content disk).2 ≠ .error (.unsafePath rel') := by
  cases hdest : resolve host.links (host.repoDir root) rel with
  | none =>
    have hfile : host.writeFile root rel content disk = (disk, .error .valueError) := by
      unfold Host.writeFile
      rw [hdest]
    rw [hfile]
    exact ⟨hbased, fun p hne => absurd rfl hne, fun rel' heq => nomatch heq⟩
  | some dest =>
    have hbelow := isSafeRel_below hplain hsafe hdest
    have hlook : Lookalike root dest := by
      obtain ⟨rest, rfl⟩ := hbelow
      exact ⟨repoName, rest, by simp, List.prefix_refl _⟩
    have htouch : ∀ p, (host.writeFile root rel content disk).1 p ≠ disk p →
        p <+: dest ∧ disk p ≠ some .dir := by
      intro p hne
      rw [writeFile_disk hplain hdest hlook] at hne
      exact save_touches hne
    refine ⟨fun p hp => ?_, fun p hne => ?_, ?_⟩
    · by_contra hdir
      have hne : (host.writeFile root rel content disk).1 p ≠ disk p := by
        rw [hbased p hp]
        exact hdir
      exact (htouch p hne).2 (hbased p hp)
    · obtain ⟨hle, hdir⟩ := htouch p hne
      obtain hshort | hlong := List.prefix_or_prefix_of_prefix hle hbelow
      · exact absurd (hbased p hshort) hdir
      · exact hlong
    · intro rel' heq
      exact (writeFile_valueError hplain heq).mp rfl dest hdest hlook

theorem writeFiles_safe (hplain : host.links.PlainBelow root)
    (hsafe : ∀ f ∈ files, isSafeRel f.1 = true) (hbased : Based root disk) :
    (∀ p, (host.writeFiles root files disk).1 p ≠ disk p → root ++ [repoName] <+: p) ∧
      ∀ rel, (host.writeFiles root files disk).2 ≠ .error (.unsafePath rel) := by
  induction files generalizing disk with
  | nil => exact ⟨fun p hne => absurd rfl hne, fun rel heq => nomatch heq⟩
  | cons f rest ih =>
    obtain ⟨hfirst, hrest⟩ := List.forall_mem_cons.mp hsafe
    obtain ⟨hnext, htouch, hresult⟩ := @writeFile_safe host root f.1 f.2 disk hplain hfirst hbased
    cases hfile : (host.writeFile root f.1 f.2 disk).2 with
    | error failure =>
      rw [writeFiles_cons_error hfile]
      refine ⟨htouch, fun rel heq => hresult rel ?_⟩
      rw [hfile]
      exact heq
    | ok _ =>
      obtain ⟨hmore, hlast⟩ := ih hrest hnext
      rw [writeFiles_cons_ok hfile]
      refine ⟨fun p hne => ?_, hlast⟩
      by_cases hsame : (host.writeFile root f.1 f.2 disk).1 p = disk p
      · rw [← hsame] at hne
        exact hmore p hne
      · exact htouch p hsame

theorem emptyRepo_touches (h : host.emptyRepo root p ≠ Tree.fresh root p) : p = root ++ [repoName] := by
  unfold Host.emptyRepo at h
  by_contra hp
  apply h
  by_cases hle : p <+: root
  · apply makeDirs_there
    unfold Tree.fresh
    rw [if_pos hle]
    exact Option.some_ne_none _
  · apply makeDirs_other
    rintro ⟨q, -, hq, rfl⟩
    obtain heq | hq := List.prefix_concat_iff.mp hq
    · exact hp heq
    · exact hle hq

theorem freshContext_loop (hacc : host.accepts (root ++ [repoName]) = true) :
    (∀ p, (host.freshContext root files patch).1 p ≠
      (host.writeFiles root files (host.emptyRepo root)).1 p → p = root ++ [patchName]) ∧
    ∀ rel, (host.freshContext root files patch).2 = .error (.unsafePath rel) →
      (host.writeFiles root files (host.emptyRepo root)).2 = .error (.unsafePath rel) := by
  rw [freshContext_eq hacc]
  cases hloop : host.writeFiles root files (host.emptyRepo root) with
  | mk written result =>
    cases result with
    | error failure => exact ⟨fun p hne => absurd rfl hne, fun rel heq => heq⟩
    | ok _ =>
      dsimp only
      cases hpatch : written.write host.accepts (root ++ [patchName]) (withNewline patch) with
      | mk after ok =>
        have htouch : ∀ p, after p ≠ written p → p = root ++ [patchName] := by
          intro p hne
          apply @write_touches Name String _ host.accepts (root ++ [patchName]) p written
            (withNewline patch)
          rw [hpatch]
          exact hne
        cases ok with
        | true => exact ⟨htouch, fun rel heq => nomatch heq⟩
        | false => exact ⟨htouch, fun rel heq => nomatch heq⟩

theorem freshContext_safe (hplain : host.links.PlainBelow root)
    (hsafe : ∀ f ∈ files, isSafeRel f.1 = true) :
    (∀ p, (host.freshContext root files patch).1 p ≠ Tree.fresh root p →
      p = root ++ [patchName] ∨ root ++ [repoName] <+: p) ∧
    ∀ rel, (host.freshContext root files patch).2 ≠ .error (.unsafePath rel) := by
  have hempty : ∀ p, host.emptyRepo root p ≠ Tree.fresh root p → root ++ [repoName] <+: p := by
    intro p hne
    rw [emptyRepo_touches hne]
  cases hacc : host.accepts (root ++ [repoName]) with
  | false =>
    rw [freshContext_full hacc]
    exact ⟨fun p hne => .inr (hempty p hne), fun rel heq => nomatch heq⟩
  | true =>
    have hbased : Based root (host.emptyRepo root) := fun p hp => (emptyRepo_holds hacc).isDir hp
    obtain ⟨hfiles, hresult⟩ := writeFiles_safe hplain hsafe hbased
    obtain ⟨hpatch, hrefused⟩ := @freshContext_loop host root patch files hacc
    refine ⟨fun p hne => ?_, fun rel heq => hresult rel (hrefused rel heq)⟩
    by_cases hp : p = root ++ [patchName]
    · exact .inl hp
    · right
      have hloop : (host.freshContext root files patch).1 p =
          (host.writeFiles root files (host.emptyRepo root)).1 p := by
        by_contra hchanged
        exact hp (hpatch p hchanged)
      by_cases hsame : (host.writeFiles root files (host.emptyRepo root)).1 p = host.emptyRepo root p
      · rw [hloop, hsame] at hne
        exact hempty p hne
      · exact hfiles p hsame

/-- The snapshot of any archive, under any caps for at least one file, respects the caps exactly
if they admit every text by its stated size that they admit by its content; and however the
headers lie, there are at most so many files and none leaves `root/repo`. -/
theorem snapshot_handover (hplain : host.links.PlainBelow root) (hcap : 1 ≤ caps.maxFiles)
    (h : extractRepoTarball caps archive = some files) :
    (HandedOver caps archive host root patch files ↔ caps.Admits archive.members) ∧
      (files.length : Int) ≤ caps.maxFiles ∧ Contained host root patch files := by
  have hmember : ∀ f ∈ files, ∃ member ∈ archive.members, ∃ size,
      member.kept? caps = some (f, size) := by
    intro f hf
    exact (extract_member hf h).resolve_left List.not_mem_nil
  have hcount : (files.length : Int) ≤ caps.maxFiles := by
    have hle := extract_count (by simp) h
    rwa [max_eq_right hcap] at hle
  have hcontained : Contained host root patch files := by
    have hsafe : ∀ f ∈ files, isSafeRel f.1 = true := by
      intro f hf
      obtain ⟨member, -, size, hkept⟩ := hmember f hf
      obtain ⟨-, hsafe, data, s, -, -, heq⟩ := kept?_eq_some.mp hkept
      rwa [(Prod.mk.inj heq).1]
    obtain ⟨htouches, haccepted⟩ := freshContext_safe hplain hsafe
    exact ⟨htouches, haccepted⟩
  refine ⟨?_, hcount, hcontained⟩
  rw [handedOver_iff hcontained hcount hmember]
  have hempty : caps.exceeds 0 = false → caps.Fits [] :=
    fun hzero => ⟨fun hne => absurd rfl hne, hzero⟩
  have hroom : (([] : List Found).length : Int) < caps.maxFiles := by
    rw [List.length_nil]
    omega
  constructor
  · intro hfits
    have hzero : caps.exceeds 0 = false := (fits_mono files.nil_prefix hfits).2
    exact ⟨hzero, (@extract_fits_iff caps _ _ [] files (hempty hzero) hroom h).mp hfits⟩
  · rintro ⟨hzero, hhonest⟩
    exact (@extract_fits_iff caps _ _ [] files (hempty hzero) hroom h).mpr hhonest

theorem snapshot_handover_textFirst :
    (HandedOver .four .textFirst .roomy contextDir "" [(text "a.py", "1\n")] ↔
      Caps.four.Admits Archive.textFirst.members) ∧
      Contained .roomy contextDir "" [(text "a.py", "1\n")] :=
  have h := @snapshot_handover .four .textFirst .roomy contextDir "" [(text "a.py", "1\n")]
    (fun _ _ _ => rfl) (by decide) (by decide)
  ⟨h.1, h.2.2⟩

def TarMember.negative (name : Text) (size : Int) (h : size.toNat = 0) : TarMember where
  name
  isfile := true
  size
  content := some .empty
  whole data hdata := by rw [← Option.some.inj hdata, h]; rfl

/-- Three bytes less than none, and a text of five. -/
def Archive.negativeFirst : Archive where
  members := [.negative (text "top/x") (-3) rfl, .regular (text "top/a.py") "1234\n".toUTF8]
  sound := true

/-- Five bytes, where the caps admit four. -/
theorem negative_size_overruns : Archive.negativeFirst.Intact ∧
    ∃ files, extractRepoTarball .four .negativeFirst = some files ∧
      ¬∀ cap, Caps.four.maxTotalBytes = some cap → (encodedSize files : Int) ≤ cap := by
  refine ⟨⟨rfl, by decide⟩, [(text "x", ""), (text "a.py", "1234\n")], by decide, fun h => ?_⟩
  exact absurd (h 4 rfl) (by decide)

end AutoPR.Sandbox
