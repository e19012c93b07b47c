import AutoPR.Grounding.Rag

/-! What an ingestion does to the chunks of other repositories. The ids do not name the
repository, so a span of the same file in two repositories is one point. -/
namespace AutoPR.Grounding
open Python Transition Upsert

theorem split_last {α : Type} {c : α} {x y e f : List α} (he : c ∉ e) (hf : c ∉ f)
    (h : x ++ c :: e = y ++ c :: f) : x = y ∧ e = f := by
  cases List.append_eq_append_iff.mp h with
  | inl hlong =>
    obtain ⟨d, hy, hcut⟩ := hlong
    cases d with
    | nil =>
      rw [hy, List.append_nil]
      exact ⟨rfl, (List.cons.inj hcut).2⟩
    | cons b d =>
      have hmem := (List.cons.inj hcut).2
      rw [hmem] at he
      simp at he
  | inr hlong =>
    obtain ⟨d, hx, hcut⟩ := hlong
    cases d with
    | nil =>
      rw [hx, List.append_nil]
      exact ⟨rfl, (List.cons.inj hcut).2.symm⟩
    | cons b d =>
      have hmem := (List.cons.inj hcut).2
      rw [hmem] at hf
      simp at hf

theorem notMem_repr {c : Char} (hc : c.isDigit = false) (n : ℕ) : c ∉ n.repr.toList := by
  intro h
  rw [Nat.toList_repr] at h
  rw [Nat.isDigit_of_mem_toDigits (by decide) (by decide) h] at hc
  cases hc

theorem spanName_inj {p q : String} {i j k l : ℕ} (h : spanName p i j = spanName q k l) :
    p = q ∧ i = k := by
  have hlists : (p.toList ++ ':' :: i.repr.toList) ++ '-' :: j.repr.toList =
      (q.toList ++ ':' :: k.repr.toList) ++ '-' :: l.repr.toList := by
    have htext := congrArg String.toList h
    simpa [spanName] using htext
  have hspan := (split_last (notMem_repr (by decide) j) (notMem_repr (by decide) l) hlists).1
  obtain ⟨hpath, hline⟩ :=
    split_last (notMem_repr (by decide) i) (notMem_repr (by decide) k) hspan
  rw [Nat.toList_repr, Nat.toList_repr] at hline
  refine ⟨String.toList_inj.mp hpath, ?_⟩
  rw [← @Nat.ofDigitChars_ten_toDigits i, hline, Nat.ofDigitChars_ten_toDigits]

section
variable {Id Vec : Type} {lib : Libraries Id Vec} {files : List (String × String)}
  {s t : Collection Id Vec} {A B : RepoName}

def Made (lib : Libraries Id Vec) (p : Point Id Vec) : Prop :=
  ∃ (A : RepoName) (c : RepoChunk), c.endLine = c.startLine + 10 ∧
    p = lib.point (groundingScope A) c

theorem chunkFile_span {file : String × String} {c : RepoChunk} (h : c ∈ lib.chunkFile file) :
    c.endLine = c.startLine + 10 := by
  unfold Libraries.chunkFile at h
  split at h
  · cases h
  · obtain ⟨pair, -, rfl⟩ := List.mem_map.mp h
    rfl

theorem batch_made {p : Point Id Vec}
    (h : p ∈ (files.flatMap lib.chunkFile).map (lib.point (groundingScope B))) :
    Made lib p ∧ p.payload.repo = B.name := by
  obtain ⟨c, hc, rfl⟩ := List.mem_map.mp h
  obtain ⟨file, -, hfile⟩ := List.mem_flatMap.mp hc
  exact ⟨⟨B, c, chunkFile_span hfile, rfl⟩, rfl⟩

theorem Made.eq_of_payload {p q : Point Id Vec} (hp : Made lib p) (hq : Made lib q)
    (h : p.payload = q.payload) : p = q := by
  obtain ⟨A, c, -, rfl⟩ := hp
  obtain ⟨B, c', -, rfl⟩ := hq
  cases c
  cases c'
  injection h with hrepo hpath hcontent hstart hend
  unfold Libraries.point Libraries.chunkId
  dsimp only at hpath hcontent hstart hend ⊢
  rw [hrepo, hpath, hcontent, hstart, hend]

theorem Made.id_iff {p : Point Id Vec} {c : RepoChunk} (hp : Made lib p)
    (hc : c.endLine = c.startLine + 10) :
    p.id = lib.chunkId c ↔ p.payload.filePath = c.filePath ∧ p.payload.startLine = c.startLine := by
  obtain ⟨A, c', hspan, rfl⟩ := hp
  constructor
  · intro h
    exact spanName_inj (lib.uuid5_injective h)
  · rintro ⟨hpath, hstart⟩
    change lib.uuid5 _ = lib.uuid5 _
    change c'.filePath = _ at hpath
    change c'.startLine = _ at hstart
    rw [hspan, hc, hpath, hstart]

theorem ingestRepo_snd [DecidableEq Id] (scope : Option String) :
    (lib.ingestRepo scope files s).2 =
      s.upsert ((files.flatMap lib.chunkFile).map (lib.point scope)) := by
  unfold Libraries.ingestRepo
  dsimp only
  split
  · rename_i hempty
    rw [List.isEmpty_iff.mp hempty]
    rfl
  · rfl

theorem made_ingestRepo [DecidableEq Id] (hs : ∀ p ∈ s, Made lib p) :
    ∀ p ∈ (lib.ingestRepo (groundingScope B) files s).2, Made lib p := by
  intro p hp
  rw [ingestRepo_snd] at hp
  cases Store.mem_upsert hp with
  | inl hnew => exact (batch_made hnew).1
  | inr hold => exact hs p hold.1

theorem Reachable.made [DecidableEq Id] (h : (ingests lib).Reachable anyStep s) :
    ∀ p ∈ s, Made lib p := by
  apply Reachable.invariant (I := fun s => ∀ p ∈ s, Made lib p) (J := fun _ => True) _ _ _ h
  · intro _ _
    trivial
  · intro p hp
    cases hp
  · intro u a v _ _ hstep hu
    cases hstep
    exact made_ingestRepo hu

/-- The chunks that some query returns. -/
def Retrievable (lib : Libraries Id Vec) (s : Collection Id Vec) (A : RepoName) : Set Payload :=
  {c | ∃ query topK, c ∈ lib.retrieve (groundingScope A) query topK s}

theorem mem_retrieve {query : String} {topK : ℕ} {c : Payload}
    (h : c ∈ lib.retrieve (groundingScope A) query topK s) :
    c.repo = A.name ∧ ∃ p ∈ s, p.payload = c := by
  unfold Libraries.retrieve groundingScope at h
  dsimp only at h
  rw [if_pos A.named] at h
  obtain ⟨p, hp, rfl⟩ := List.mem_map.mp h
  have hmatching := (lib.rank_perm _ _).mem_iff.mp (List.mem_of_mem_take hp)
  obtain ⟨hmem, hrepo⟩ := List.mem_filter.mp hmatching
  exact ⟨of_decide_eq_true hrepo, p, hmem, rfl⟩

theorem mem_retrievable {c : Payload} :
    c ∈ Retrievable lib s A ↔ c.repo = A.name ∧ ∃ p ∈ s, p.payload = c := by
  constructor
  · rintro ⟨query, topK, h⟩
    exact mem_retrieve h
  · rintro ⟨hrepo, p, hp, rfl⟩
    refine ⟨"", s.items.length, ?_⟩
    unfold Libraries.retrieve groundingScope
    dsimp only
    rw [if_pos A.named]
    apply List.mem_map_of_mem
    rw [List.take_of_length_le]
    · apply (lib.rank_perm _ _).mem_iff.mpr
      exact List.mem_filter.mpr ⟨hp, decide_eq_true hrepo⟩
    · rw [(lib.rank_perm _ _).length_eq]
      exact List.length_filter_le _ _

theorem retrievable_eq_iff (hs : ∀ p ∈ s, Made lib p) (ht : ∀ p ∈ t, Made lib p) :
    Retrievable lib t A = Retrievable lib s A ↔
      Store.Alike (fun p : Point Id Vec => p.payload.repo) A.name t s := by
  constructor
  · intro h p hp
    have hseen := Set.ext_iff.mp h p.payload
    rw [mem_retrievable, mem_retrievable] at hseen
    constructor
    · intro hmem
      obtain ⟨-, q, hq, hsame⟩ := hseen.mp ⟨hp, p, hmem, rfl⟩
      rw [(ht p hmem).eq_of_payload (hs q hq) hsame.symm]
      exact hq
    · intro hmem
      obtain ⟨-, q, hq, hsame⟩ := hseen.mpr ⟨hp, p, hmem, rfl⟩
      rw [(hs p hmem).eq_of_payload (ht q hq) hsame.symm]
      exact hq
  · intro h
    ext c
    rw [mem_retrievable, mem_retrievable]
    constructor
    · rintro ⟨hrepo, p, hp, rfl⟩
      exact ⟨hrepo, p, (h p hrepo).mp hp, rfl⟩
    · rintro ⟨hrepo, p, hp, rfl⟩
      exact ⟨hrepo, p, (h p hrepo).mpr hp, rfl⟩

/-- The ingestion meets no span of another repository's file. -/
def Free (lib : Libraries Id Vec) (s : Collection Id Vec) (B : RepoName)
    (files : List (String × String)) : Prop :=
  ∀ c ∈ files.flatMap lib.chunkFile, ∀ p ∈ s, p.payload.filePath = c.filePath →
    p.payload.startLine = c.startLine → p.payload.repo = B.name

instance (s : Collection Id Vec) : Decidable (Free lib s B files) :=
  inferInstanceAs (Decidable (∀ c ∈ files.flatMap lib.chunkFile, ∀ p ∈ s.items,
    p.payload.filePath = c.filePath → p.payload.startLine = c.startLine → p.payload.repo = B.name))

theorem free_iff (hs : ∀ p ∈ s, Made lib p) :
    Free lib s B files ↔ Store.Meets (fun p : Point Id Vec => p.payload.repo) B.name s
      ((files.flatMap lib.chunkFile).map (lib.point (groundingScope B))) := by
  have hspan (c : RepoChunk) (hc : c ∈ files.flatMap lib.chunkFile) :
      c.endLine = c.startLine + 10 := by
    obtain ⟨file, -, hfile⟩ := List.mem_flatMap.mp hc
    exact chunkFile_span hfile
  constructor
  · intro h a ha p hp hid
    obtain ⟨c, hc, rfl⟩ := List.mem_map.mp ha
    obtain ⟨hpath, hstart⟩ := ((hs p hp).id_iff (hspan c hc)).mp hid
    exact h c hc p hp hpath hstart
  · intro h c hc p hp hpath hstart
    apply h _ (List.mem_map_of_mem hc) p hp
    exact ((hs p hp).id_iff (hspan c hc)).mpr ⟨hpath, hstart⟩

variable [DecidableEq Id]

/-- The other repositories see the same as before exactly when the ingestion meets none of their
spans. -/
theorem others_retrievable_iff (hs : ∀ p ∈ s, Made lib p) :
    (∀ A, A ≠ B → Retrievable lib (lib.ingestRepo (groundingScope B) files s).2 A =
      Retrievable lib s A) ↔ Free lib s B files := by
  have hmade := @made_ingestRepo Id Vec lib files s B _ hs
  rw [free_iff hs, ← Store.others_alike_iff fun a ha => (batch_made ha).2, ← ingestRepo_snd]
  constructor
  · intro h repo hrepo p hp
    have hother (p : Point Id Vec) (hmade : Made lib p) (hp : p.payload.repo = repo) :
        ∃ A : RepoName, A.name = repo := by
      obtain ⟨A, c, -, rfl⟩ := hmade
      exact ⟨A, hp⟩
    have hscope (A : RepoName) (hA : A.name = repo) := by
      have hne : A ≠ B := by
        intro hsame
        rw [← hA, hsame] at hrepo
        exact hrepo rfl
      exact (retrievable_eq_iff hs hmade).mp (h A hne) p (hp.trans hA.symm)
    constructor
    · intro hmem
      obtain ⟨A, hA⟩ := hother p (hmade p hmem) hp
      exact (hscope A hA).mp hmem
    · intro hmem
      obtain ⟨A, hA⟩ := hother p (hs p hmem) hp
      exact (hscope A hA).mpr hmem
  · intro h A hne
    apply (retrievable_eq_iff hs hmade).mpr
    apply h
    intro hsame
    apply hne
    cases A
    cases B
    cases hsame
    rfl

/-- In a run whose ingestions all meet no span of another repository's, a repository finds what its
own ingestions alone would have left. -/
theorem isolated_run {acts : List Ingest} {u v : Collection Id Vec}
    (hfree : (ingests lib).Admits (fun s a => Free lib s a.repo a.files) acts s)
    (hs : ∀ p ∈ s, Made lib p) (ht : ∀ p ∈ t, Made lib p)
    (hsame : Store.Alike (fun p : Point Id Vec => p.payload.repo) A.name s t)
    (hu : (ingests lib).exec acts s = some u)
    (hv : (ingests lib).exec (acts.filter (·.repo = A)) t = some v) :
    Retrievable lib u A = Retrievable lib v A := by
  induction acts generalizing s t with
  | nil =>
    cases hu
    cases hv
    exact (retrievable_eq_iff ht hs).mpr hsame
  | cons a rest ih =>
    obtain ⟨hmeets, hrest⟩ := hfree
    change (ingests lib).exec rest (lib.ingestRepo (groundingScope a.repo) a.files s).2 = some u at hu
    have hmade := @made_ingestRepo Id Vec lib a.files s a.repo _ hs
    by_cases hown : a.repo = A
    · rw [List.filter_cons_of_pos (by simp [hown])] at hv
      change (ingests lib).exec _ (lib.ingestRepo (groundingScope a.repo) a.files t).2 = some v at hv
      apply ih hrest hmade (made_ingestRepo ht) _ hu hv
      rw [ingestRepo_snd, ingestRepo_snd]
      exact hsame.upsert
    · rw [List.filter_cons_of_neg (by simp [hown])] at hv
      apply ih hrest hmade ht _ hu hv
      have hkept := (retrievable_eq_iff hs hmade).mp
        ((others_retrievable_iff hs).mpr hmeets A (Ne.symm hown))
      intro p hp
      exact (hkept p hp).trans (hsame p hp)

theorem Reachable.ingested {x : Indexer Id Vec} (h : (indexers lib).Reachable anyStep x) :
    (ingests lib).Reachable anyStep x.collection := by
  apply Reachable.refine (f := Indexer.collection) (J := fun _ => True) (fun _ _ => trivial) rfl _ h
  intro y a z _ _ hstep
  cases a with
  | restart worker =>
    cases hstep
    exact .inl rfl
  | index worker repo ref snapshot ingestion =>
    have hz : z.collection =
        (lib.indexSnapshot repo ref snapshot ingestion (y.indexed worker) y.collection).2 := by
      cases hstep
      rfl
    rw [hz]
    unfold Libraries.indexSnapshot
    dsimp only
    split
    · exact .inl rfl
    · split
      · exact .inl rfl
      · cases ingestion with
        | done => exact .inr ⟨⟨repo, snapshot⟩, trivial, rfl⟩
        | failed applied =>
          cases applied with
          | true => exact .inr ⟨⟨repo, snapshot⟩, trivial, rfl⟩
          | false => exact .inl rfl

end

/-- In every run, every search is answered with chunks of its own repository; and an ingestion
leaves what the others can find alone exactly when it meets none of their spans. -/
theorem rag_isolated_iff {Id Vec : Type} [DecidableEq Id] (lib : Libraries Id Vec)
    (s : Collection Id Vec) (h : (ingests lib).Reachable anyStep s) (B : RepoName)
    (files : List (String × String)) :
    ((∀ A, A ≠ B → Retrievable lib (lib.ingestRepo (groundingScope B) files s).2 A =
        Retrievable lib s A) ∧
      ∀ A query topK, ∀ c ∈ lib.retrieve (groundingScope A) query topK s, c.repo = A.name) ↔
    Free lib s B files := by
  rw [others_retrievable_iff (Reachable.made h)]
  constructor
  · intro hboth
    exact hboth.1
  · intro hfree
    refine ⟨hfree, ?_⟩
    intro A query topK c hc
    exact (mem_retrieve hc).1

/-- Every text is one chunk. -/
def Libraries.small : Libraries String Unit where
  uuid5 := id
  uuid5_injective := Function.injective_id
  splitText text := [text]
  embed _ := ()
  rank _ points := points
  rank_perm _ points := List.Perm.refl points

def api : RepoName := ⟨"acme/api", by decide⟩

def web : RepoName := ⟨"acme/web", by decide⟩

abbrev apiIngested : Collection String Unit :=
  (ingests Libraries.small).after [⟨api, [("README.md", "The API.")]⟩] rfl

theorem rag_isolated_iff_small :
    (∀ A, A ≠ web → Retrievable .small (Libraries.small.ingestRepo (groundingScope web)
        [("render.py", "def render(view): ...")] apiIngested).2 A =
        Retrievable .small apiIngested A) ∧
      ∀ A query topK, ∀ c ∈ Libraries.small.retrieve (groundingScope A) query topK apiIngested,
        c.repo = A.name :=
  (rag_isolated_iff .small apiIngested (Reachable.after _ (System.Admits.any _ _)) web
    [("render.py", "def render(view): ...")]).mpr (by decide)

/-- The README of the second repository takes the place of the first one's. -/
theorem readme_overwritten :
    Libraries.small.retrieve (groundingScope api) "What is this?" 3 apiIngested =
      [⟨"acme/api", "README.md", "The API.", 1, 11⟩] ∧
    Libraries.small.retrieve (groundingScope api) "What is this?" 3
      (Libraries.small.ingestRepo (groundingScope web) [("README.md", "The site.")]
        apiIngested).2 = [] ∧
    ¬ ∀ A, A ≠ web → Retrievable .small (Libraries.small.ingestRepo (groundingScope web)
      [("README.md", "The site.")] apiIngested).2 A = Retrievable .small apiIngested A := by
  refine ⟨by decide, by decide, ?_⟩
  have hmade : ∀ p ∈ apiIngested, Made .small p :=
    Reachable.made (Reachable.after _ (System.Admits.any _ _))
  rw [others_retrievable_iff hmade]
  decide

end AutoPR.Grounding
