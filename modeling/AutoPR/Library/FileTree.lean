import Mathlib.Data.List.Infix
import Mathlib.Logic.Function.Basic

/-! A tree of directories and files, in which directories are made on the way to a file. What
the tree holds after a number of files are saved depends on their paths alone. -/
namespace AutoPR.FileTree

variable {ν κ : Type*} [DecidableEq ν]

inductive Node (κ : Type*) where
  | dir
  | file (content : κ)
deriving DecidableEq

abbrev Tree (ν κ : Type*) := List ν → Option (Node κ)

def Tree.put (t : Tree ν κ) (path : List ν) (node : Node κ) : Tree ν κ :=
  Function.update t path (some node)

/-- Make the directories below `dir`, as far as the file system accepts new entries, and say
whether all of them are there. -/
def Tree.makeDirs (accepts : List ν → Bool) (dir : List ν) : List ν → Tree ν κ → Tree ν κ × Bool
  | [], t => (t, true)
  | name :: rest, t =>
      match t (dir ++ [name]) with
      | some .dir => t.makeDirs accepts (dir ++ [name]) rest
      | some (.file _) => (t, false)
      | none =>
          if accepts (dir ++ [name]) then
            (t.put (dir ++ [name]) .dir).makeDirs accepts (dir ++ [name]) rest
          else (t, false)

def Tree.write (accepts : List ν → Bool) (path : List ν) (content : κ) (t : Tree ν κ) :
    Tree ν κ × Bool :=
  match t path with
  | some .dir => (t, false)
  | some (.file _) | none =>
      if accepts path then (t.put path (.file content), true) else (t, false)

def Tree.save (accepts : List ν → Bool) (path : List ν) (content : κ) (t : Tree ν κ) :
    Tree ν κ × Bool :=
  match t.makeDirs accepts [] path.dropLast with
  | (made, true) => made.write accepts path content
  | (made, false) => (made, false)

def Tree.IsFile (t : Tree ν κ) (path : List ν) : Prop := ∃ content, t path = some (.file content)

def Tree.fresh (base : List ν) : Tree ν κ := fun path => if path <+: base then some .dir else none

/-- The way to this directory, and these files with the directories above them. -/
structure Holds (accepts : List ν → Bool) (base : List ν) (files : List (List ν)) (t : Tree ν κ) :
    Prop where
  file_iff : ∀ p, t.IsFile p ↔ p ∈ files
  dir_iff : ∀ p, t p = some .dir ↔ p <+: base ∨ ∃ f ∈ files, p <+: f ∧ p ≠ f
  accepted : ∀ f ∈ files, ∀ p, p <+: f → ¬ p <+: base → accepts p = true

/-- There is room for the file beside these: none of them is on the way to it, it is not on
the way to one of them, and the file system accepts what is new. -/
structure Fits (accepts : List ν → Bool) (base : List ν) (files : List (List ν)) (path : List ν) :
    Prop where
  above : ∀ f ∈ files, f <+: path → f = path
  below : ∀ f ∈ files, path <+: f → path = f
  outside : ¬ path <+: base
  accepted : ∀ p, p <+: path → ¬ p <+: base → accepts p = true

variable {accepts : List ν → Bool} {dir base path p : List ν} {rest : List ν} {files : List (List ν)}
  {t : Tree ν κ} {content : κ}

theorem Holds.fresh : Holds accepts base [] (Tree.fresh base : Tree ν κ) where
  file_iff p := by
    unfold Tree.IsFile Tree.fresh
    split <;> simp
  dir_iff p := by
    unfold Tree.fresh
    split <;> simp [*]
  accepted f hf := by cases hf

theorem makeDirs_file : (t.makeDirs accepts dir rest).1.IsFile p ↔ t.IsFile p := by
  induction rest generalizing dir t with
  | nil => rfl
  | cons name rest ih =>
    unfold Tree.makeDirs
    cases hnode : t (dir ++ [name]) with
    | some node =>
      cases node with
      | dir => exact ih
      | file content => rfl
    | none =>
      dsimp only
      split
      · rw [ih]
        unfold Tree.IsFile Tree.put
        by_cases hp : p = dir ++ [name]
        · subst hp
          simp [hnode]
        · rw [Function.update_of_ne hp]
      · rfl

theorem makeDirs_other (h : ¬ ∃ q, q ≠ [] ∧ q <+: rest ∧ p = dir ++ q) :
    (t.makeDirs accepts dir rest).1 p = t p := by
  induction rest generalizing dir t with
  | nil => rfl
  | cons name rest ih =>
    have hnext : ¬ ∃ q, q ≠ [] ∧ q <+: rest ∧ p = dir ++ [name] ++ q := by
      rintro ⟨q, -, hq, rfl⟩
      exact h ⟨name :: q, List.cons_ne_nil _ _, List.cons_prefix_cons.mpr ⟨rfl, hq⟩, by simp⟩
    have hne : p ≠ dir ++ [name] := by
      rintro rfl
      exact h ⟨[name], List.cons_ne_nil _ _, List.cons_prefix_cons.mpr ⟨rfl, List.nil_prefix⟩, rfl⟩
    unfold Tree.makeDirs
    cases hnode : t (dir ++ [name]) with
    | some node =>
      cases node with
      | dir => exact ih hnext
      | file content => rfl
    | none =>
      dsimp only
      split
      · rw [ih hnext]
        exact Function.update_of_ne hne _ _
      · rfl

def Tree.Passable (accepts : List ν → Bool) (t : Tree ν κ) (p : List ν) : Prop :=
  ¬ t.IsFile p ∧ (t p = none → accepts p = true)

omit [DecidableEq ν] in
theorem passable_cons {name : ν} :
    (∀ q, q ≠ [] → q <+: name :: rest → t.Passable accepts (dir ++ q)) ↔
      t.Passable accepts (dir ++ [name]) ∧
        ∀ q, q ≠ [] → q <+: rest → t.Passable accepts (dir ++ [name] ++ q) := by
  constructor
  · intro h
    refine ⟨h [name] (List.cons_ne_nil _ _) (List.cons_prefix_cons.mpr ⟨rfl, List.nil_prefix⟩),
      fun q _ hq => ?_⟩
    rw [List.append_assoc]
    exact h (name :: q) (List.cons_ne_nil _ _) (List.cons_prefix_cons.mpr ⟨rfl, hq⟩)
  · rintro ⟨hfirst, hrest⟩ q hne hq
    cases q with
    | nil => exact absurd rfl hne
    | cons first q =>
      obtain ⟨rfl, htail⟩ := List.cons_prefix_cons.mp hq
      cases q with
      | nil => exact hfirst
      | cons second q =>
        have hpass := hrest (second :: q) (List.cons_ne_nil _ _) htail
        rw [List.append_assoc] at hpass
        exact hpass

theorem makeDirs_iff : (t.makeDirs accepts dir rest).2 = true ↔
    ∀ q, q ≠ [] → q <+: rest → t.Passable accepts (dir ++ q) := by
  induction rest generalizing dir t with
  | nil =>
    apply iff_of_true rfl
    intro q hne hq
    exact absurd (List.prefix_nil.mp hq) hne
  | cons name rest ih =>
    rw [passable_cons]
    unfold Tree.makeDirs
    cases hnode : t (dir ++ [name]) with
    | some node =>
      cases node with
      | dir =>
        have hpass : t.Passable accepts (dir ++ [name]) := by
          simp [Tree.Passable, Tree.IsFile, hnode]
        rw [and_iff_right hpass]
        exact ih
      | file content =>
        apply iff_of_false Bool.false_ne_true
        rintro ⟨⟨hfile, -⟩, -⟩
        exact hfile ⟨content, hnode⟩
    | none =>
      dsimp only
      split
      · rename_i hacc
        have hpass : t.Passable accepts (dir ++ [name]) := by
          simp [Tree.Passable, Tree.IsFile, hnode, hacc]
        have hsame : ∀ q, q ≠ [] → (t.put (dir ++ [name]) .dir) (dir ++ [name] ++ q) =
            t (dir ++ [name] ++ q) := by
          intro q hne
          apply Function.update_of_ne
          intro heq
          exact hne (List.append_right_eq_self.mp heq)
        rw [and_iff_right hpass, ih]
        apply forall₃_congr
        intro q hne _
        unfold Tree.Passable Tree.IsFile
        rw [hsame q hne]
      · rename_i hacc
        apply iff_of_false Bool.false_ne_true
        rintro ⟨⟨-, hmissing⟩, -⟩
        exact hacc (hmissing hnode)

theorem makeDirs_dir (h : (t.makeDirs accepts dir rest).2 = true) {q : List ν} (hne : q ≠ [])
    (hq : q <+: rest) : (t.makeDirs accepts dir rest).1 (dir ++ q) = some .dir := by
  induction rest generalizing dir t q with
  | nil => exact absurd (List.prefix_nil.mp hq) hne
  | cons name rest ih =>
    cases q with
    | nil => exact absurd rfl hne
    | cons first q =>
      obtain ⟨rfl, htail⟩ := List.cons_prefix_cons.mp hq
      have hrest : ∀ u : Tree ν κ, u (dir ++ [first]) = some .dir →
          (u.makeDirs accepts (dir ++ [first]) rest).2 = true →
          (u.makeDirs accepts (dir ++ [first]) rest).1 (dir ++ first :: q) = some .dir := by
        intro u hu hok
        have happend : dir ++ first :: q = dir ++ [first] ++ q := by simp
        rw [happend]
        cases q with
        | nil =>
          rw [List.append_nil, makeDirs_other]
          · exact hu
          · rintro ⟨more, hmore, -, heq⟩
            exact hmore (List.append_right_eq_self.mp heq.symm)
        | cons second q => exact ih hok (List.cons_ne_nil _ _) htail
      unfold Tree.makeDirs at h ⊢
      cases hnode : t (dir ++ [first]) with
      | some node =>
        rw [hnode] at h
        cases node with
        | dir => exact hrest t hnode h
        | file content => cases h
      | none =>
        rw [hnode] at h
        dsimp only at h ⊢
        split at h
        · rename_i hacc
          rw [if_pos hacc]
          exact hrest _ (Function.update_self ..) h
        · cases h

omit [DecidableEq ν] in
theorem prefix_dropLast_iff (h : path ≠ []) : p <+: path.dropLast ↔ p <+: path ∧ p ≠ path := by
  have hpath : path.dropLast ++ [path.getLast h] = path := List.dropLast_append_getLast h
  rw [← hpath, List.prefix_concat_iff, List.dropLast_concat, hpath]
  constructor
  · intro hp
    refine ⟨.inr hp, ?_⟩
    rintro rfl
    have hlength := hp.length_le
    rw [List.length_dropLast] at hlength
    have hpos := List.length_pos_iff.mpr h
    omega
  · rintro ⟨hp | hp, hne⟩
    · exact absurd hp hne
    · exact hp

omit [DecidableEq ν] in
theorem Holds.isDir (h : Holds accepts base files t) (hp : p <+: base) : t p = some .dir :=
  (h.dir_iff p).mpr (.inl hp)

omit [DecidableEq ν] in
theorem Tree.IsFile.not_dir (h : t.IsFile p) : t p ≠ some .dir := by
  obtain ⟨content, hfile⟩ := h
  rw [hfile]
  exact fun heq => nomatch heq

theorem Holds.makeDirs_iff (h : Holds accepts base files t) (hpath : path ≠ []) :
    (t.makeDirs accepts [] path.dropLast).2 = true ↔
      (∀ f ∈ files, f <+: path → f = path) ∧
        ∀ q, q <+: path → q ≠ path → ¬ q <+: base → accepts q = true := by
  rw [FileTree.makeDirs_iff]
  simp only [List.nil_append, prefix_dropLast_iff hpath]
  constructor
  · intro hpass
    constructor
    · intro f hf hle
      by_contra hne
      have hfile : t.IsFile f := (h.file_iff f).mpr hf
      cases f with
      | nil => exact hfile.not_dir (h.isDir List.nil_prefix)
      | cons first more => exact (hpass _ (List.cons_ne_nil _ _) ⟨hle, hne⟩).1 hfile
    · intro q hle hne hout
      cases q with
      | nil => exact absurd List.nil_prefix hout
      | cons first more =>
        obtain ⟨hfile, hmissing⟩ := hpass _ (List.cons_ne_nil first more) ⟨hle, hne⟩
        cases hnode : t (first :: more) with
        | none => exact hmissing hnode
        | some node =>
          cases node with
          | file content => exact absurd ⟨content, hnode⟩ hfile
          | dir =>
            obtain hbase | ⟨f, hf, hqf, -⟩ := (h.dir_iff _).mp hnode
            · exact absurd hbase hout
            · exact h.accepted f hf _ hqf hout
  · rintro ⟨habove, hacc⟩ q - ⟨hle, hne⟩
    constructor
    · intro hfile
      exact hne (habove q ((h.file_iff q).mp hfile) hle)
    · intro hmissing
      apply hacc q hle hne
      intro hbase
      rw [h.isDir hbase] at hmissing
      cases hmissing

theorem makeDirs_self : (t.makeDirs accepts [] path.dropLast).1 path = t path := by
  apply makeDirs_other
  rintro ⟨q, hne, hq, rfl⟩
  exact ((prefix_dropLast_iff hne).mp hq).2 rfl

theorem write_iff : (t.write accepts path content).2 = true ↔
    t path ≠ some .dir ∧ accepts path = true := by
  unfold Tree.write
  cases t path with
  | none => cases accepts path <;> simp
  | some node => cases node <;> cases accepts path <;> simp

theorem write_put (h : (t.write accepts path content).2 = true) :
    (t.write accepts path content).1 = t.put path (.file content) := by
  obtain ⟨hdir, hacc⟩ := write_iff.mp h
  unfold Tree.write
  split
  · rename_i hnode
    exact absurd hnode hdir
  · rw [if_pos hacc]
  · rw [if_pos hacc]

theorem save_ok : (t.save accepts path content).2 = true ↔
    (t.makeDirs accepts [] path.dropLast).2 = true ∧ t path ≠ some .dir ∧ accepts path = true := by
  rw [← @makeDirs_self ν κ _ accepts path t, ← write_iff]
  unfold Tree.save
  cases hmade : t.makeDirs accepts [] path.dropLast with
  | mk made ok =>
    cases ok with
    | true => exact (and_iff_right rfl).symm
    | false => simp

theorem save_put (h : (t.save accepts path content).2 = true) :
    (t.save accepts path content).1 =
      (t.makeDirs accepts [] path.dropLast).1.put path (.file content) := by
  unfold Tree.save at h ⊢
  cases hmade : t.makeDirs accepts [] path.dropLast with
  | mk made ok =>
    rw [hmade] at h
    cases ok with
    | true => exact write_put h
    | false => cases h

theorem Holds.save_iff (h : Holds accepts base files t) :
    (t.save accepts path content).2 = true ↔ Fits accepts base files path := by
  rw [save_ok]
  constructor
  · rintro ⟨hmade, hdir, hacc⟩
    have hnil : path ≠ [] := by
      rintro rfl
      exact hdir (h.isDir List.nil_prefix)
    obtain ⟨habove, haccepts⟩ := (h.makeDirs_iff hnil).mp hmade
    refine ⟨habove, ?_, fun hbase => hdir (h.isDir hbase), ?_⟩
    · intro f hf hle
      by_contra hne
      exact hdir ((h.dir_iff path).mpr (.inr ⟨f, hf, hle, hne⟩))
    · intro q hle hout
      by_cases hq : q = path
      · rw [hq]
        exact hacc
      · exact haccepts q hle hq hout
  · rintro ⟨habove, hbelow, hout, hacc⟩
    have hnil : path ≠ [] := by
      rintro rfl
      exact hout List.nil_prefix
    refine ⟨(h.makeDirs_iff hnil).mpr ⟨habove, fun q hle _ => hacc q hle⟩, ?_,
      hacc path (List.prefix_refl path) hout⟩
    intro hdir
    obtain hbase | ⟨f, hf, hle, hne⟩ := (h.dir_iff path).mp hdir
    · exact hout hbase
    · exact hne (hbelow f hf hle)

theorem Holds.save (h : Holds accepts base files t)
    (hok : (t.save accepts path content).2 = true) :
    Holds accepts base (path :: files) (t.save accepts path content).1 := by
  obtain ⟨-, hbelow, hout, hacc⟩ := h.save_iff.mp hok
  have hnil : path ≠ [] := by
    rintro rfl
    exact hout List.nil_prefix
  have hmade := (save_ok.mp hok).1
  rw [save_put hok]
  constructor
  · intro p
    by_cases hp : p = path
    · subst hp
      apply iff_of_true _ List.mem_cons_self
      exact ⟨content, Function.update_self ..⟩
    · have hmem : p ∈ path :: files ↔ p ∈ files := by simp [hp]
      rw [hmem, ← h.file_iff, ← @makeDirs_file ν κ _ accepts [] p path.dropLast t]
      unfold Tree.IsFile Tree.put
      rw [Function.update_of_ne hp]
  · intro p
    simp only [List.exists_mem_cons_iff]
    by_cases hp : p = path
    · subst hp
      apply iff_of_false
      · unfold Tree.put
        rw [Function.update_self]
        exact fun heq => nomatch heq
      · rintro (hbase | ⟨-, hne⟩ | ⟨f, hf, hle, hne⟩)
        · exact hout hbase
        · exact hne rfl
        · exact hne (hbelow f hf hle)
    · unfold Tree.put
      rw [Function.update_of_ne hp]
      by_cases hway : p <+: path ∧ p ≠ []
      · obtain ⟨hle, hne⟩ := hway
        have hdir := makeDirs_dir hmade hne ((prefix_dropLast_iff hnil).mpr ⟨hle, hp⟩)
        exact iff_of_true hdir (.inr (.inl ⟨hle, hp⟩))
      · have hsame : (t.makeDirs accepts [] path.dropLast).1 p = t p := by
          apply makeDirs_other
          rintro ⟨q, hne, hq, rfl⟩
          exact hway ⟨((prefix_dropLast_iff hnil).mp hq).1, hne⟩
        rw [hsame, h.dir_iff]
        constructor
        · rintro (hbase | hfile)
          · exact .inl hbase
          · exact .inr (.inr hfile)
        · rintro (hbase | ⟨hle, -⟩ | hfile)
          · exact .inl hbase
          · have hempty : p = [] := by
              by_contra hne
              exact hway ⟨hle, hne⟩
            rw [hempty]
            exact .inl List.nil_prefix
          · exact .inr hfile
  · intro f hf p hle hbase
    obtain rfl | hf := List.mem_cons.mp hf
    · exact hacc p hle hbase
    · exact h.accepted f hf p hle hbase

theorem write_failed (h : (t.write accepts path content).2 = false) :
    (t.write accepts path content).1 = t := by
  unfold Tree.write at h ⊢
  cases hnode : t path with
  | none =>
    rw [hnode] at h
    cases hacc : accepts path with
    | true => simp [hacc] at h
    | false => rfl
  | some node =>
    rw [hnode] at h
    cases node with
    | dir => rfl
    | file old =>
      cases hacc : accepts path with
      | true => simp [hacc] at h
      | false => rfl

theorem save_failed (h : (t.save accepts path content).2 = false) :
    (t.save accepts path content).1.IsFile p ↔ t.IsFile p := by
  rw [← @makeDirs_file ν κ _ accepts [] p path.dropLast t]
  unfold Tree.save at h ⊢
  cases hmade : t.makeDirs accepts [] path.dropLast with
  | mk made ok =>
    rw [hmade] at h
    cases ok with
    | false => rfl
    | true =>
      dsimp only at h ⊢
      rw [write_failed h]

theorem save_file (h : (t.save accepts path content).1.IsFile p) : t.IsFile p ∨ p = path := by
  cases hok : (t.save accepts path content).2 with
  | false => exact .inl ((save_failed hok).mp h)
  | true =>
    by_cases hp : p = path
    · exact .inr hp
    · left
      rw [← @makeDirs_file ν κ _ accepts [] p path.dropLast t]
      rw [save_put hok] at h
      unfold Tree.IsFile Tree.put at h
      rw [Function.update_of_ne hp] at h
      exact h

theorem write_touches (h : (t.write accepts path content).1 p ≠ t p) : p = path := by
  by_contra hp
  apply h
  cases hok : (t.write accepts path content).2 with
  | false => rw [write_failed hok]
  | true =>
    rw [write_put hok]
    exact Function.update_of_ne hp _ _

theorem write_file (h : (t.write accepts path content).1.IsFile p) : t.IsFile p ∨ p = path := by
  cases hok : (t.write accepts path content).2 with
  | false =>
    rw [write_failed hok] at h
    exact .inl h
  | true =>
    rw [write_put hok] at h
    by_cases hp : p = path
    · exact .inr hp
    · unfold Tree.IsFile Tree.put at h
      rw [Function.update_of_ne hp] at h
      exact .inl h

theorem Holds.descend (h : Holds accepts base [] t)
    (hok : (t.makeDirs accepts [] (base ++ rest)).2 = true) :
    Holds accepts (base ++ rest) [] (t.makeDirs accepts [] (base ++ rest)).1 where
  file_iff p := makeDirs_file.trans (h.file_iff p)
  dir_iff p := by
    have hsimp : (p <+: base ++ rest ∨ ∃ f ∈ ([] : List (List ν)), p <+: f ∧ p ≠ f) ↔
        p <+: base ++ rest := by simp
    rw [hsimp]
    by_cases hway : p ≠ [] ∧ p <+: base ++ rest
    · exact iff_of_true (makeDirs_dir hok hway.1 hway.2) hway.2
    · have hsame : (t.makeDirs accepts [] (base ++ rest)).1 p = t p := by
        apply makeDirs_other
        rintro ⟨q, hne, hq, rfl⟩
        exact hway ⟨hne, hq⟩
      rw [hsame, h.dir_iff]
      constructor
      · rintro (hle | ⟨f, hf, -⟩)
        · exact hle.trans (List.prefix_append base rest)
        · cases hf
      · intro hle
        have hnil : p = [] := by
          by_contra hne
          exact hway ⟨hne, hle⟩
        rw [hnil]
        exact .inl List.nil_prefix
  accepted f hf := by cases hf

def AllFit (accepts : List ν → Bool) (base : List ν) (earlier : List (List ν)) :
    List (List ν) → Prop
  | [] => True
  | path :: rest => Fits accepts base earlier path ∧ AllFit accepts base (path :: earlier) rest

theorem makeDirs_there (h : t p ≠ none) : (t.makeDirs accepts dir rest).1 p = t p := by
  induction rest generalizing dir t with
  | nil => rfl
  | cons name rest ih =>
    unfold Tree.makeDirs
    cases hnode : t (dir ++ [name]) with
    | some node =>
      cases node with
      | dir => exact ih h
      | file content => rfl
    | none =>
      dsimp only
      split
      · have hput : (t.put (dir ++ [name]) .dir) p = t p := by
          apply Function.update_of_ne
          rintro rfl
          exact h hnode
        rw [ih (hput ▸ h), hput]
      · rfl

theorem save_touches (h : (t.save accepts path content).1 p ≠ t p) :
    p <+: path ∧ t p ≠ some .dir := by
  by_cases hmade : (t.makeDirs accepts [] path.dropLast).1 p = t p
  · cases hok : (t.save accepts path content).2 with
    | true =>
      rw [save_put hok] at h
      by_cases hp : p = path
      · rw [hp]
        exact ⟨List.prefix_refl path, (save_ok.mp hok).2.1⟩
      · unfold Tree.put at h
        rw [Function.update_of_ne hp] at h
        exact absurd hmade h
    | false =>
      unfold Tree.save at h hok
      cases hdirs : t.makeDirs accepts [] path.dropLast with
      | mk made ok =>
        rw [hdirs] at h hok hmade
        cases ok with
        | false => exact absurd hmade h
        | true =>
          dsimp only at h hok
          rw [write_failed hok] at h
          exact absurd hmade h
  · constructor
    · by_contra hle
      apply hmade
      apply makeDirs_other
      rintro ⟨q, -, hq, rfl⟩
      exact hle (hq.trans (List.dropLast_prefix path))
    · intro hdir
      apply hmade
      apply makeDirs_there
      rw [hdir]
      exact Option.some_ne_none _

end AutoPR.FileTree
