import Mathlib.Algebra.GroupWithZero.Nat
import Mathlib.Data.List.Infix

/-! POSIX paths: texts of code points, cut at slashes, resolved component by component in a
file system that may have symbolic links, and written out again. -/
namespace AutoPR.Posix

abbrev CodePoint := Fin 0x110000

instance neZeroCodePoints : NeZero 0x110000 := ⟨by decide⟩
instance : LawfulBEq CodePoint := inferInstance

/-- A text that may hold lone surrogates, such as a file name that is not UTF-8. -/
abbrev Text := List CodePoint

def code (c : Char) : CodePoint :=
  ⟨c.toNat, by
    have h := c.valid
    unfold UInt32.isValidChar Nat.isValidChar at h
    unfold Char.toNat
    omega⟩

def text (s : String) : Text := s.toList.map code

def slash : CodePoint := 0x2f
def dot : CodePoint := 0x2e

/-- The operating system takes it: no NUL, and no lone surrogate but those that stand for a
byte of a name. -/
def encodable (t : Text) : Bool :=
  t.all fun c => c.val ≠ 0 && (c.val < 0xd800 || 0xdfff < c.val || (0xdc80 ≤ c.val && c.val < 0xdd00))

def Name := { t : Text // t ≠ [] ∧ t ≠ [dot] ∧ t ≠ [dot, dot] ∧ slash ∉ t ∧ encodable t = true }

instance : DecidableEq Name := inferInstanceAs (DecidableEq { _t : Text // _ })

abbrev Path := List Name

/-- `/a/b`. -/
def render : Path → Text
  | [] => [slash]
  | name :: rest => (name :: rest).flatMap fun name => slash :: name.val

/-- Where a name leads in a directory once links are followed. Links do not run in circles. -/
abbrev Links := Path → Name → Path

/-- No entry below this directory is a symbolic link. -/
def Links.PlainBelow (links : Links) (root : Path) : Prop :=
  ∀ dir name, root <+: dir → links dir name = dir ++ [name]

def name? (t : Text) : Option Name :=
  if h : t ≠ [] ∧ t ≠ [dot] ∧ t ≠ [dot, dot] ∧ slash ∉ t ∧ encodable t = true then some ⟨t, h⟩ else none

/-- One component of a path; none for one that the operating system does not take. -/
def enter (links : Links) (dir : Path) (component : Text) : Option Path :=
  if component = [] ∨ component = [dot] then some dir
  else if component = [dot, dot] then some dir.dropLast
  else (name? component).map (links dir)

def isAbsolute (t : Text) : Bool := t.head? = some slash

/-- `realpath` of a path given in a directory. -/
def resolve (links : Links) (dir : Path) (t : Text) : Option Path :=
  (t.splitOn slash).foldlM (enter links) (if isAbsolute t then [] else dir)

theorem Name.slash_notMem (name : Name) : slash ∉ name.val := name.property.2.2.2.1

theorem render_of_ne {path : Path} (h : path ≠ []) :
    render path = path.flatMap fun name => slash :: name.val := by
  cases path with
  | nil => exact absurd rfl h
  | cons name rest => rfl

theorem render_head (path : Path) : ∃ tail, render path = slash :: tail := by
  cases path with
  | nil => exact ⟨[], rfl⟩
  | cons name rest => exact ⟨_, rfl⟩

theorem render_cons (name : Name) (rest : Path) :
    render (name :: rest) = slash :: (name.val ++ if rest = [] then [] else render rest) := by
  cases rest with
  | nil => simp [render]
  | cons next rest => simp [render]

theorem upToSlash_unique {a b s t : Text} (ha : slash ∉ a) (hb : slash ∉ b)
    (h : a ++ slash :: s = b ++ slash :: t) : a = b ∧ s = t := by
  induction a generalizing b with
  | nil =>
    cases b with
    | nil => exact ⟨rfl, (List.cons.inj h).2⟩
    | cons c rest =>
      have hc : slash = c := (List.cons.inj h).1
      exact absurd (hc ▸ List.mem_cons_self) hb
  | cons c rest ih =>
    cases b with
    | nil =>
      have hc : c = slash := (List.cons.inj h).1
      exact absurd (hc ▸ List.mem_cons_self) ha
    | cons d more =>
      obtain ⟨rfl, htail⟩ := List.cons.inj h
      obtain ⟨rfl, hs⟩ := ih (fun hmem => ha (List.mem_cons_of_mem _ hmem))
        (fun hmem => hb (List.mem_cons_of_mem _ hmem)) htail
      exact ⟨rfl, hs⟩

theorem single_prefix {last : Name} {path : Path} (h : render [last] <+: render path) :
    ∃ name rest, path = name :: rest ∧ last.val <+: name.val := by
  cases path with
  | nil =>
    have hnil : last.val ++ [] <+: [] := (List.cons_prefix_cons.mp h).2
    rw [List.append_nil, List.prefix_nil] at hnil
    exact absurd hnil last.property.1
  | cons name rest =>
    refine ⟨name, rest, rfl, ?_⟩
    rw [render_cons, render_cons, if_pos rfl, List.append_nil, List.cons_prefix_cons] at h
    obtain hle | ⟨more, hmore⟩ := List.prefix_or_prefix_of_prefix h.2 (List.prefix_append name.val _)
    · exact hle
    · have hfollow : more <+: if rest = [] then [] else render rest := by
        rw [← hmore] at h
        exact (List.prefix_append_right_inj name.val).mp h.2
      cases more with
      | nil =>
        rw [List.append_nil] at hmore
        rw [hmore]
      | cons c more =>
        split at hfollow
        · exact absurd (List.prefix_nil.mp hfollow) (List.cons_ne_nil _ _)
        · obtain ⟨tail, htail⟩ := render_head rest
          rw [htail, List.cons_prefix_cons] at hfollow
          have hmem : slash ∈ last.val := by
            rw [← hmore, hfollow.1]
            exact List.mem_append_right _ List.mem_cons_self
          exact absurd hmem last.slash_notMem

/-- A written path begins with another one if it goes through the same directories, and then
through a name that begins with the last one of the other. -/
theorem render_prefix_iff {base : Path} {last : Name} {path : Path} :
    render (base ++ [last]) <+: render path ↔
      ∃ name rest, path = base ++ name :: rest ∧ last.val <+: name.val := by
  constructor
  · intro h
    induction base generalizing path with
    | nil => exact single_prefix h
    | cons first base ih =>
      rw [List.cons_append, render_cons, if_neg (by simp)] at h
      obtain ⟨tail, htail⟩ := render_head (base ++ [last])
      cases path with
      | nil =>
        have hnil := List.prefix_nil.mp (List.cons_prefix_cons.mp h).2
        rw [htail] at hnil
        exact absurd hnil (by simp)
      | cons name rest =>
        rw [render_cons, List.cons_prefix_cons] at h
        obtain ⟨more, hmore⟩ := h.2
        rw [htail, List.append_assoc, List.cons_append] at hmore
        split at hmore
        · have hmem : slash ∈ name.val := by
            rw [← List.append_nil name.val, ← hmore]
            exact List.mem_append_right _ List.mem_cons_self
          exact absurd hmem name.slash_notMem
        · obtain ⟨tail', htail'⟩ := render_head rest
          rw [htail'] at hmore
          obtain ⟨hname, hrest⟩ := upToSlash_unique first.slash_notMem name.slash_notMem hmore
          obtain ⟨next, rest', rfl, hle⟩ := @ih rest (by
            rw [htail, htail', ← hrest]
            exact List.cons_prefix_cons.mpr ⟨rfl, List.prefix_append _ _⟩)
          exact ⟨next, rest', by rw [Subtype.ext hname]; rfl, hle⟩
  · rintro ⟨name, rest, rfl, hle⟩
    rw [render_of_ne (by simp), render_of_ne (by simp), List.flatMap_append, List.flatMap_append,
      List.prefix_append_right_inj, List.flatMap_singleton, List.flatMap_cons, List.cons_append,
      List.cons_prefix_cons]
    exact ⟨rfl, hle.trans (List.prefix_append _ _)⟩

end AutoPR.Posix
