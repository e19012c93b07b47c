import AutoPR.Sandbox.Snapshot

/-! When the snapshot is complete up to its caps: the loop agrees with the texts taken in order,
as long as no member that is left out ends it and none states less than it holds. -/
namespace AutoPR.Sandbox
open Posix

variable {caps : Caps} {sound : Bool} {out files : List (Text × String)} {total : Int}
  {member : TarMember} {members rest : List TarMember} {found : List Found} {next : Found}
  {P : List Found → TarMember → List TarMember → Prop}

theorem exceeds_mono {total' : Int} (hle : total ≤ total') (h : caps.exceeds total = true) :
    caps.exceeds total' = true := by
  unfold Caps.exceeds at h ⊢
  rw [Option.any_eq_true] at h ⊢
  obtain ⟨cap, hcap, hlt⟩ := h
  exact ⟨cap, hcap, decide_eq_true (lt_of_lt_of_le (of_decide_eq_true hlt) hle)⟩

theorem isCounted_iff : member.isCounted caps = true ↔
    member.isfile = true ∧ member.size ≤ caps.maxFileBytes := by
  simp [TarMember.isCounted]

theorem kept?_eq_some : member.kept? caps = some next ↔ member.isCounted caps = true ∧
    isSafeRel (stripTop member.name) = true ∧ ∃ data text, member.content = some data ∧
      String.fromUTF8? data = some text ∧ next = ((stripTop member.name, text), member.size) := by
  unfold TarMember.kept? TarMember.decoded?
  cases member.isCounted caps with
  | false => simp
  | true =>
    cases isSafeRel (stripTop member.name) with
    | false => simp
    | true =>
      simp only [if_true, Option.map_map, Option.map_eq_some_iff, Option.bind_eq_some_iff, true_and]
      constructor
      · rintro ⟨text, ⟨data, hdata, htext⟩, rfl⟩
        exact ⟨data, text, hdata, htext, rfl⟩
      · rintro ⟨data, text, hdata, htext, rfl⟩
        exact ⟨text, ⟨data, hdata, htext⟩, rfl⟩

theorem kept?_counted (h : member.kept? caps = some next) : member.isCounted caps = true :=
  (kept?_eq_some.mp h).1

theorem kept?_size (h : member.kept? caps = some next) : next.2 = member.size := by
  obtain ⟨-, -, data, text, -, -, rfl⟩ := kept?_eq_some.mp h
  rfl

theorem size_of_decode {data : ByteArray} {s : String} (h : String.fromUTF8? data = some s) :
    s.utf8ByteSize = data.size := by
  unfold String.fromUTF8? at h
  split at h
  · cases h
    rfl
  · cases h

theorem kept?_bytes (h : member.kept? caps = some next) :
    next.1.2.utf8ByteSize = member.size.toNat := by
  obtain ⟨-, -, data, text, hdata, htext, rfl⟩ := kept?_eq_some.mp h
  exact (size_of_decode htext).trans (member.whole data hdata)

theorem text?_eq (hbytes : 0 ≤ caps.maxFileBytes) :
    member.text? caps = (member.kept? caps).map (·.1) := by
  have hsize : ((member.size.toNat : Int) ≤ caps.maxFileBytes) =
      (member.size ≤ caps.maxFileBytes) := by
    apply propext
    omega
  unfold TarMember.text? TarMember.kept? TarMember.isCounted
  simp only [hsize]
  split
  · simp [Option.map_map, Function.comp_def]
  · rfl

theorem extract_ignored (h : member.isCounted caps = false) :
    extractRepoTarballFrom caps sound out total (member :: rest) =
      extractRepoTarballFrom caps sound out total rest := by
  refine if_pos ?_
  unfold TarMember.isCounted at h
  cases hfile : member.isfile with
  | false => rfl
  | true => simpa [hfile] using h

theorem extract_counted (h : member.isCounted caps = true) :
    extractRepoTarballFrom caps sound out total (member :: rest) =
      if caps.exceeds (total + member.size) then some out
      else if !isSafeRel (stripTop member.name) then
        extractRepoTarballFrom caps sound out total rest
      else match member.content with
        | none => none
        | some data =>
            match String.fromUTF8? data with
            | none => extractRepoTarballFrom caps sound out total rest
            | some text =>
                if caps.maxFiles ≤ (out ++ [(stripTop member.name, text)]).length then
                  some (out ++ [(stripTop member.name, text)])
                else extractRepoTarballFrom caps sound (out ++ [(stripTop member.name, text)])
                  (total + member.size) rest := by
  obtain ⟨hfile, hsize⟩ := isCounted_iff.mp h
  exact if_neg (by simp [hfile, hsize])

theorem extract_full (h : member.isCounted caps = true)
    (hfull : caps.exceeds (total + member.size) = true) :
    extractRepoTarballFrom caps sound out total (member :: rest) = some out := by
  rw [extract_counted h, if_pos hfull]

theorem extract_discarded (h : member.isCounted caps = true) (hnone : member.kept? caps = none)
    (hfull : caps.exceeds (total + member.size) = false) :
    extractRepoTarballFrom caps sound out total (member :: rest) =
      if isSafeRel (stripTop member.name) && member.content.isNone then none
      else extractRepoTarballFrom caps sound out total rest := by
  rw [extract_counted h, if_neg (by simp [hfull])]
  cases hsafe : isSafeRel (stripTop member.name) with
  | false => rfl
  | true =>
    rw [if_neg (by simp)]
    cases hdata : member.content with
    | none => rfl
    | some data =>
      dsimp only
      cases htext : String.fromUTF8? data with
      | none => rfl
      | some text =>
        rw [kept?_eq_some.mpr ⟨h, hsafe, data, text, hdata, htext, rfl⟩] at hnone
        cases hnone

theorem extract_text (h : member.kept? caps = some next)
    (hfull : caps.exceeds (total + member.size) = false) :
    extractRepoTarballFrom caps sound out total (member :: rest) =
      if caps.maxFiles ≤ (out ++ [next.1]).length then some (out ++ [next.1])
      else extractRepoTarballFrom caps sound (out ++ [next.1]) (total + next.2) rest := by
  obtain ⟨hcounted, hsafe, data, text, hdata, htext, rfl⟩ := kept?_eq_some.mp h
  rw [extract_counted hcounted, if_neg (by simp [hfull]), if_neg (by simp [hsafe]), hdata]
  dsimp only
  rw [htext]

theorem extract_cases
    (h : extractRepoTarballFrom caps sound out total (member :: rest) = some files) :
    files = out ∨ extractRepoTarballFrom caps sound out total rest = some files ∨
      ∃ next, member.kept? caps = some next ∧ caps.exceeds (total + member.size) = false ∧
        (files = out ++ [next.1] ∨ ((out ++ [next.1]).length : Int) < caps.maxFiles ∧
          extractRepoTarballFrom caps sound (out ++ [next.1]) (total + next.2) rest =
            some files) := by
  cases hcounted : member.isCounted caps with
  | false =>
    rw [extract_ignored hcounted] at h
    exact .inr (.inl h)
  | true =>
    cases hfull : caps.exceeds (total + member.size) with
    | true =>
      rw [extract_full hcounted hfull] at h
      exact .inl (Option.some.inj h).symm
    | false =>
      cases hkept : member.kept? caps with
      | none =>
        rw [extract_discarded hcounted hkept hfull] at h
        split at h
        · cases h
        · exact .inr (.inl h)
      | some next =>
        refine .inr (.inr ⟨next, rfl, rfl, ?_⟩)
        rw [extract_text hkept hfull] at h
        split at h
        · exact .inl (Option.some.inj h).symm
        · rename_i hcount
          exact .inr ⟨Int.not_le.mp hcount, h⟩

theorem extract_extends (h : extractRepoTarballFrom caps sound out total members = some files) :
    out <+: files := by
  induction members generalizing out total with
  | nil =>
    unfold extractRepoTarballFrom at h
    split at h
    · cases h
      exact List.prefix_refl _
    · cases h
  | cons member rest ih =>
    obtain rfl | h | ⟨next, -, -, hnext⟩ := extract_cases h
    · exact List.prefix_refl _
    · exact ih h
    · have hstep : out <+: out ++ [next.1] := List.prefix_append _ _
      obtain rfl | ⟨-, h⟩ := hnext
      · exact hstep
      · exact hstep.trans (ih h)

theorem kept_cons : kept caps (member :: rest) = (member.kept? caps).toList ++ kept caps rest := by
  unfold kept
  cases hkept : member.kept? caps with
  | none => rw [List.filterMap_cons_none hkept]; rfl
  | some next => rw [List.filterMap_cons_some hkept]; rfl

theorem reads_nil : caps.Reads found [] ↔ (found.length : Int) < caps.maxFiles := by
  unfold Caps.Reads
  rw [show kept caps [] = [] from rfl, List.append_nil, and_iff_left_iff_imp]
  intro _ front member back heq
  cases front <;> cases heq

theorem reads_cons {before : List TarMember} : caps.Reads found (member :: before) ↔
    (member.isCounted caps = true → caps.exceeds (stated found + member.size) = false) ∧
      caps.Reads (found ++ (member.kept? caps).toList) before := by
  unfold Caps.Reads
  rw [kept_cons, ← List.append_assoc]
  constructor
  · rintro ⟨hroom, hall⟩
    refine ⟨?_, hroom, fun front other back heq => ?_⟩
    · have hfirst := hall [] member before rfl
      rwa [show kept caps [] = [] from rfl, List.append_nil] at hfirst
    · have hlater := hall (member :: front) other back (by rw [heq, List.cons_append])
      rwa [kept_cons, ← List.append_assoc] at hlater
  · rintro ⟨hfirst, hroom, hall⟩
    refine ⟨hroom, fun front other back heq => ?_⟩
    cases front with
    | nil =>
      obtain ⟨rfl, -⟩ := List.cons.inj heq
      rwa [show kept caps [] = [] from rfl, List.append_nil]
    | cons head front =>
      obtain ⟨rfl, hrest⟩ := List.cons.inj heq
      rw [kept_cons, ← List.append_assoc]
      exact hall front other back hrest

theorem throughout_nil : Throughout caps found [] P := by
  intro before member after heq
  cases before <;> cases heq

theorem throughout_cons : Throughout caps found (member :: rest) P ↔
    ((found.length : Int) < caps.maxFiles → P found member rest) ∧
      ((member.isCounted caps = true → caps.exceeds (stated found + member.size) = false) →
        Throughout caps (found ++ (member.kept? caps).toList) rest P) := by
  constructor
  · intro h
    refine ⟨fun hroom => ?_, fun hfits before other after heq hreads => ?_⟩
    · have hfirst := h [] member rest rfl (reads_nil.mpr hroom)
      rwa [show kept caps [] = [] from rfl, List.append_nil] at hfirst
    · have hlater := h (member :: before) other after (by rw [heq, List.cons_append])
        (reads_cons.mpr ⟨hfits, hreads⟩)
      rwa [kept_cons, ← List.append_assoc] at hlater
  · rintro ⟨hfirst, hlater⟩ before other after heq hreads
    cases before with
    | nil =>
      obtain ⟨rfl, rfl⟩ := List.cons.inj heq
      rw [show kept caps [] = [] from rfl, List.append_nil]
      exact hfirst (reads_nil.mp hreads)
    | cons head before =>
      obtain ⟨rfl, hrest⟩ := List.cons.inj heq
      obtain ⟨hfits, hreads⟩ := reads_cons.mp hreads
      rw [kept_cons, ← List.append_assoc]
      exact hlater hfits before other after hrest hreads

theorem throughout_closed (h : caps.maxFiles ≤ found.length) : Throughout caps found members P := by
  rintro before member after - ⟨hroom, -⟩
  rw [List.length_append] at hroom
  omega

theorem throughout_skip (hfits : member.isCounted caps = true →
      caps.exceeds (stated found + member.size) = false) (hnone : member.kept? caps = none)
    (hfirst : P found member rest) :
    Throughout caps found (member :: rest) P ↔ Throughout caps found rest P := by
  rw [throughout_cons, hnone, Option.toList_none, List.append_nil, and_iff_right fun _ => hfirst,
    forall_prop_of_true hfits]

theorem throughout_stop (hcounted : member.isCounted caps = true)
    (hfull : caps.exceeds (stated found + member.size) = true)
    (hroom : (found.length : Int) < caps.maxFiles) :
    Throughout caps found (member :: rest) P ↔ P found member rest := by
  rw [throughout_cons, forall_prop_of_true hroom, and_iff_left]
  intro hfits
  rw [hfits hcounted] at hfull
  cases hfull

theorem throughout_text (hkept : member.kept? caps = some next)
    (hfull : caps.exceeds (stated found + member.size) = false)
    (hroom : (found.length : Int) < caps.maxFiles) :
    Throughout caps found (member :: rest) P ↔
      P found member rest ∧ Throughout caps (found ++ [next]) rest P := by
  rw [throughout_cons, forall_prop_of_true hroom, forall_prop_of_true fun _ => hfull, hkept]
  rfl

theorem takeWithin_count {more : List (Text × String)} (h : caps.maxFiles ≤ out.length) :
    takeWithin caps out more = out := by
  cases more with
  | nil => rfl
  | cons next rest =>
    unfold takeWithin
    rw [decide_eq_true h, Bool.true_or, if_pos rfl]

theorem takeWithin_next {first : Text × String} {more : List (Text × String)}
    (hroom : (out.length : Int) < caps.maxFiles) :
    takeWithin caps out (first :: more) =
      if caps.exceeds (encodedSize (out ++ [first])) then out
      else takeWithin caps (out ++ [first]) more := by
  rw [takeWithin, decide_eq_false (Int.not_le.mpr hroom), Bool.false_or]

theorem length_le_takeWithin {more : List (Text × String)} :
    out.length ≤ (takeWithin caps out more).length := by
  induction more generalizing out with
  | nil => exact Nat.le_refl _
  | cons next rest ih =>
    unfold takeWithin
    split
    · exact Nat.le_refl _
    · have hle := @ih (out ++ [next])
      rw [List.length_append] at hle
      omega

theorem takeWithin_eq_iff {more : List (Text × String)}
    (hroom : (out.length : Int) < caps.maxFiles) : out = takeWithin caps out more ↔
      ∀ next ∈ more.head?, caps.exceeds (encodedSize (out ++ [next])) = true := by
  cases more with
  | nil => simp [takeWithin]
  | cons first rest =>
    rw [takeWithin_next hroom]
    simp only [List.head?_cons, Option.mem_some_iff, forall_eq']
    cases caps.exceeds (encodedSize (out ++ [first])) with
    | true => simp
    | false =>
      apply iff_of_false _ Bool.false_ne_true
      intro heq
      have hlength := congrArg List.length heq
      have hle := @length_le_takeWithin caps (out ++ [first]) rest
      rw [if_neg Bool.false_ne_true] at hlength
      rw [List.length_append, List.length_singleton] at hle
      omega

theorem encodedSize_snoc {f : Text × String} :
    encodedSize (out ++ [f]) = encodedSize out + f.2.utf8ByteSize := by
  simp [encodedSize]

theorem stated_snoc : stated (found ++ [next]) = stated found + next.2 := by
  simp [stated]

theorem texts_cons (hbytes : 0 ≤ caps.maxFileBytes) :
    texts caps (member :: rest) = ((member.kept? caps).map (·.1)).toList ++ texts caps rest := by
  unfold texts
  rw [← text?_eq hbytes]
  cases htext : member.text? caps with
  | none => rw [List.filterMap_cons_none htext]; rfl
  | some text => rw [List.filterMap_cons_some htext]; rfl

def Agrees (caps : Caps) (found : List Found) (members : List TarMember) : Prop :=
  extractRepoTarballFrom caps true (found.map (·.1)) (stated found) members =
    some (takeWithin caps (found.map (·.1)) (texts caps members))

theorem agrees_skip (hbytes : 0 ≤ caps.maxFileBytes) (hcontent : member.content.isSome = true)
    (hkept : member.kept? caps = none)
    (hfits : member.isCounted caps = true → caps.exceeds (stated found + member.size) = false) :
    Agrees caps found (member :: rest) ↔ Agrees caps found rest := by
  unfold Agrees
  rw [texts_cons hbytes, hkept, Option.map_none, Option.toList_none, List.nil_append]
  cases hcounted : member.isCounted caps with
  | false => rw [extract_ignored hcounted]
  | true =>
    rw [extract_discarded hcounted hkept (hfits hcounted), if_neg]
    simp [Option.isNone_eq_false_iff.mpr hcontent]

theorem agrees_stop (hbytes : 0 ≤ caps.maxFileBytes) (hroom : (found.length : Int) < caps.maxFiles)
    (hcounted : member.isCounted caps = true) (hkept : member.kept? caps = none)
    (hfull : caps.exceeds (stated found + member.size) = true) :
    Agrees caps found (member :: rest) ↔ ∀ next ∈ (texts caps rest).head?,
      caps.exceeds (encodedSize (found.map (·.1) ++ [next])) = true := by
  unfold Agrees
  rw [extract_full hcounted hfull, Option.some_inj, texts_cons hbytes, hkept, Option.map_none,
    Option.toList_none, List.nil_append]
  apply takeWithin_eq_iff
  rwa [List.length_map]

theorem encodedSize_kept (hkept : member.kept? caps = some next) :
    encodedSize (found.map (·.1) ++ [next.1]) =
      encodedSize (found.map (·.1)) + member.size.toNat := by
  rw [encodedSize_snoc, kept?_bytes hkept]

theorem agrees_full (hbytes : 0 ≤ caps.maxFileBytes) (hroom : (found.length : Int) < caps.maxFiles)
    (hstated : stated found ≤ encodedSize (found.map (·.1))) (hkept : member.kept? caps = some next)
    (hfull : caps.exceeds (stated found + member.size) = true) :
    Agrees caps found (member :: rest) := by
  have hover : caps.exceeds (encodedSize (found.map (·.1) ++ [next.1])) = true := by
    apply exceeds_mono _ hfull
    rw [encodedSize_kept hkept]
    push_cast
    omega
  unfold Agrees
  rw [extract_full (kept?_counted hkept) hfull, texts_cons hbytes, hkept, Option.map_some,
    Option.toList_some, List.singleton_append, takeWithin_next (by rwa [List.length_map]), hover,
    if_pos rfl]

theorem agrees_slip (hbytes : 0 ≤ caps.maxFileBytes) (hroom : (found.length : Int) < caps.maxFiles)
    (hkept : member.kept? caps = some next)
    (hfull : caps.exceeds (stated found + member.size) = false)
    (hover : caps.exceeds (encodedSize (found.map (·.1) ++ [next.1])) = true) :
    ¬Agrees caps found (member :: rest) := by
  unfold Agrees
  rw [extract_text hkept hfull, texts_cons hbytes, hkept, Option.map_some, Option.toList_some,
    List.singleton_append, takeWithin_next (by rwa [List.length_map]), hover, if_pos rfl]
  intro hsame
  have hlong : (found.map (·.1) ++ [next.1]) <+: found.map (·.1) := by
    split at hsame
    · rw [Option.some.inj hsame]
    · exact extract_extends hsame
  have hle := hlong.length_le
  rw [List.length_append, List.length_singleton] at hle
  omega

theorem agrees_text (hbytes : 0 ≤ caps.maxFileBytes) (hroom : (found.length : Int) < caps.maxFiles)
    (hkept : member.kept? caps = some next)
    (hfull : caps.exceeds (stated found + member.size) = false)
    (hfits : caps.exceeds (encodedSize (found.map (·.1) ++ [next.1])) = false) :
    Agrees caps found (member :: rest) ↔
      ((found ++ [next]).length < caps.maxFiles → Agrees caps (found ++ [next]) rest) := by
  have hmap : found.map (·.1) ++ [next.1] = (found ++ [next]).map (·.1) := by
    rw [List.map_append, List.map_singleton]
  unfold Agrees
  rw [extract_text hkept hfull, texts_cons hbytes, hkept, Option.map_some, Option.toList_some,
    List.singleton_append, takeWithin_next (by rwa [List.length_map]), hfits,
    if_neg Bool.false_ne_true, stated_snoc, hmap, List.length_map]
  split
  · rename_i hlast
    rw [takeWithin_count (by rwa [List.length_map])]
    exact iff_of_true rfl fun hroom => absurd hlast (Int.not_le.mpr hroom)
  · rename_i hmore
    rw [forall_prop_of_true (Int.not_le.mp hmore)]

theorem agrees_iff (hbytes : 0 ≤ caps.maxFileBytes)
    (hread : ∀ member ∈ members, member.content.isSome = true)
    (hroom : (found.length : Int) < caps.maxFiles)
    (hstated : stated found ≤ encodedSize (found.map (·.1))) :
    Agrees caps found members ↔ Throughout caps found members (Undisturbed caps) := by
  induction members generalizing found with
  | nil => exact iff_of_true rfl throughout_nil
  | cons member rest ih =>
    obtain ⟨hcontent, hread⟩ := List.forall_mem_cons.mp hread
    cases hkept : member.kept? caps with
    | none =>
      have hslip : ∀ next, member.kept? caps = some next →
          caps.exceeds (encodedSize (found.map (·.1) ++ [next.1])) = true →
            caps.exceeds (stated found + member.size) = true := by
        intro next hnext
        rw [hkept] at hnext
        cases hnext
      by_cases hfits : member.isCounted caps = true →
          caps.exceeds (stated found + member.size) = false
      · have hfirst : Undisturbed caps found member rest := by
          refine ⟨fun hcounted _ hfull => ?_, hslip⟩
          rw [hfits hcounted] at hfull
          cases hfull
        rw [agrees_skip hbytes hcontent hkept hfits, throughout_skip hfits hkept hfirst]
        exact ih hread hroom hstated
      · push Not at hfits
        obtain ⟨hcounted, hfull⟩ := hfits
        rw [Bool.ne_false_iff] at hfull
        rw [agrees_stop hbytes hroom hcounted hkept hfull, throughout_stop hcounted hfull hroom]
        exact ⟨fun h => ⟨fun _ _ _ => h, hslip⟩, fun h => h.1 hcounted hkept hfull⟩
    | some next =>
      have hcounted := kept?_counted hkept
      have hleft : ∀ {p : Prop}, member.kept? caps = none → p := by
        intro p hnone
        rw [hkept] at hnone
        cases hnone
      cases hfull : caps.exceeds (stated found + member.size) with
      | true =>
        rw [throughout_stop hcounted hfull hroom]
        exact iff_of_true (agrees_full hbytes hroom hstated hkept hfull)
          ⟨fun _ hnone => hleft hnone, fun _ _ _ => hfull⟩
      | false =>
        rw [throughout_text hkept hfull hroom]
        cases hover : caps.exceeds (encodedSize (found.map (·.1) ++ [next.1])) with
        | true =>
          apply iff_of_false (agrees_slip hbytes hroom hkept hfull hover)
          rintro ⟨⟨-, hslip⟩, -⟩
          rw [hslip next hkept hover] at hfull
          cases hfull
        | false =>
          have hfirst : Undisturbed caps found member rest := by
            refine ⟨fun _ hnone => hleft hnone, fun other hother hslip => ?_⟩
            rw [hkept] at hother
            rw [← Option.some.inj hother, hover] at hslip
            cases hslip
          rw [agrees_text hbytes hroom hkept hfull hover, and_iff_right hfirst]
          by_cases hmore : ((found ++ [next]).length : Int) < caps.maxFiles
          · rw [forall_prop_of_true hmore]
            apply ih hread hmore
            rw [List.map_append, List.map_singleton, encodedSize_kept hkept, stated_snoc,
              kept?_size hkept]
            push_cast
            omega
          · exact iff_of_true (fun h => absurd h hmore) (throughout_closed (Int.not_lt.mp hmore))

theorem nothingFits_skip (hkept : member.kept? caps = none)
    (hfits : member.isCounted caps = true → caps.exceeds member.size = false) :
    NothingFits caps (member :: rest) ↔ NothingFits caps rest := by
  constructor
  · intro h before other after next heq hnone hnext
    have hlater := h (member :: before) other after next (by rw [heq, List.cons_append])
      (by rw [kept_cons, hkept, hnone]; rfl) hnext
    refine hlater.imp_right ?_
    rintro ⟨left, hleft, hcounted, hfull⟩
    obtain rfl | hleft := List.mem_cons.mp hleft
    · rw [hfits hcounted] at hfull
      cases hfull
    · exact ⟨left, hleft, hcounted, hfull⟩
  · intro h before other after next heq hnone hnext
    cases before with
    | nil =>
      obtain ⟨rfl, -⟩ := List.cons.inj heq
      rw [hkept] at hnext
      cases hnext
    | cons head before =>
      obtain ⟨rfl, hrest⟩ := List.cons.inj heq
      rw [kept_cons, hkept] at hnone
      refine (h before other after next hrest hnone hnext).imp_right ?_
      rintro ⟨left, hleft, hover⟩
      exact ⟨left, List.mem_cons_of_mem _ hleft, hover⟩

theorem extract_nothing_iff (hread : ∀ member ∈ members, member.content.isSome = true) :
    extractRepoTarballFrom caps true [] 0 members = some [] ↔ NothingFits caps members := by
  induction members with
  | nil =>
    apply iff_of_true rfl
    intro before member after next heq
    cases before <;> cases heq
  | cons member rest ih =>
    obtain ⟨hcontent, hread⟩ := List.forall_mem_cons.mp hread
    cases hcounted : member.isCounted caps with
    | false =>
      have hkept : member.kept? caps = none := by
        unfold TarMember.kept?
        rw [hcounted, if_neg Bool.false_ne_true]
      rw [extract_ignored hcounted, nothingFits_skip hkept fun h => ?_]
      · exact ih hread
      · rw [hcounted] at h
        cases h
    | true =>
      cases hfull : caps.exceeds member.size with
      | true =>
        apply iff_of_true (extract_full hcounted (by rwa [zero_add]))
        intro before other after next heq _ _
        cases before with
        | nil =>
          obtain ⟨rfl, -⟩ := List.cons.inj heq
          exact .inl hfull
        | cons head before =>
          obtain ⟨rfl, -⟩ := List.cons.inj heq
          exact .inr ⟨member, List.mem_cons_self, hcounted, hfull⟩
      | false =>
        cases hkept : member.kept? caps with
        | none =>
          rw [extract_discarded hcounted hkept (by rwa [zero_add]), if_neg,
            nothingFits_skip hkept fun _ => hfull]
          · exact ih hread
          · simp [Option.isNone_eq_false_iff.mpr hcontent]
        | some next =>
          apply iff_of_false
          · rw [extract_text hkept (by rwa [zero_add])]
            intro hempty
            split at hempty
            · cases hempty
            · exact absurd (extract_extends hempty).length_le (by simp)
          · intro h
            obtain hover | ⟨left, hleft, -⟩ := h [] member rest next rfl rfl hkept
            · rw [hfull] at hover
              cases hover
            · cases hleft

theorem snapshotOf_eq_nil {archive : Archive} (h : ¬(1 ≤ caps.maxFiles ∧ 0 ≤ caps.maxFileBytes)) :
    snapshotOf caps archive = [] := by
  by_cases hfiles : 1 ≤ caps.maxFiles
  · have hbytes : caps.maxFileBytes < 0 := by
      by_contra hle
      exact h ⟨hfiles, Int.not_lt.mp hle⟩
    have hnone : texts caps archive.members = [] := by
      apply List.filterMap_eq_nil_iff.mpr
      intro member _
      unfold TarMember.text?
      rw [if_neg]
      rw [Bool.and_eq_true, decide_eq_true_eq]
      omega
    unfold snapshotOf
    rw [hnone]
    rfl
  · apply takeWithin_count
    rw [List.length_nil]
    omega

/-- An archive that can be read gives the texts up to the caps exactly if these caps serve it. -/
theorem extract_complete_iff {archive : Archive} (hintact : archive.Intact) :
    extractRepoTarball caps archive = some (snapshotOf caps archive) ↔
      caps.Serves archive.members := by
  obtain ⟨hsound, hread⟩ := hintact
  unfold extractRepoTarball Caps.Serves
  rw [hsound]
  split
  · rename_i h
    obtain ⟨hfiles, hbytes⟩ := h
    have hroom : (([] : List Found).length : Int) < caps.maxFiles := by
      rw [List.length_nil]
      omega
    exact @agrees_iff caps archive.members [] hbytes hread hroom (Int.le_refl 0)
  · rename_i h
    rw [snapshotOf_eq_nil h]
    exact extract_nothing_iff hread

/-- At most four bytes in all. -/
def Caps.four : Caps := ⟨1000, 2000, some 4⟩

def TarMember.regular (name : Text) (data : ByteArray) : TarMember where
  name
  isfile := true
  size := data.size
  content := some data
  whole _ h := by rw [Option.some.inj h, Int.toNat_natCast]

/-- A picture of five bytes, then a text of two. -/
def Archive.pictureFirst : Archive where
  members := [.regular (text "top/logo.png") ⟨#[0xff, 0xd8, 0xff, 0x00, 0x01]⟩,
    .regular (text "top/a.py") "1\n".toUTF8]
  sound := true

/-- The text comes first. -/
def Archive.textFirst : Archive where
  members := [.regular (text "top/a.py") "1\n".toUTF8,
    .regular (text "top/logo.png") ⟨#[0xff, 0xd8, 0xff, 0x00, 0x01]⟩]
  sound := true

theorem extract_complete_iff_textFirst :
    extractRepoTarball .four .textFirst = some (snapshotOf .four .textFirst) ↔
      Caps.four.Serves Archive.textFirst.members :=
  extract_complete_iff ⟨rfl, by decide⟩

/-- The picture, which is left out, ends the snapshot before the text. -/
theorem picture_ends : Archive.pictureFirst.Intact ∧
    extractRepoTarball .four .pictureFirst = some [] ∧
    extractRepoTarball .four .pictureFirst ≠ some (snapshotOf .four .pictureFirst) :=
  ⟨⟨rfl, by decide⟩, by decide, by decide⟩

end AutoPR.Sandbox
