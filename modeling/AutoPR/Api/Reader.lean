import AutoPR.Api.Reading
import AutoPR.Frontend.Polling

/-! A reader of the Jobs page, with the hook that polls the history, the pager under the list, and
the server, which goes on between any two statements. Next pressed while a request is out leaves
the old page under the new offset; who presses it again then skips a page. Otherwise no job is
missed unless one ahead of it has lost the status that is filtered for. -/
namespace AutoPR.Api
open Jobs Webhook Browsing Transition Frontend

/-- A page that has been stored: its offset, and the states of the statements that counted the
matches and selected it. -/
structure Selection where
  offset : Nat
  counted : Webhook.State
  read : Webhook.State

inductive Answering where
  | received
  | counted (counted : Webhook.State)
  | selected (counted read : Webhook.State)

structure Reader where
  site : Webhook.State
  /-- The search and the filter stay; what the request depends on is the offset. -/
  hook : Hook Nat JobsPage String
  answering : Answering := .received
  /-- Every page stored so far. -/
  shown : List Selection := []

inductive ReaderEvent where
  | site (a : Webhook.Action)
  | poll (e : Event Nat JobsPage String)
  | count
  | select
  | respond (now : Nat)
  | fail (error : String)
  | next
  | previous

/-- The pager under the list: there is none while it loads, under an error or an empty list. -/
def Reader.pager (s : Reader) : Option Pager :=
  if s.hook.loading || s.hook.error.isSome then none
  else (s.hook.data.map (·.value)).bind fun page =>
    if page.jobs = [] then none else some ⟨page.total, pageSize, s.hook.rendered.deps⟩

def pollInterval : Nat := 5000

def Reader.setOffset (s : Reader) (offset : Nat) : Option Reader :=
  (s.hook.step (.render ⟨pollInterval, offset⟩)).map fun hook => { s with hook := hook }

section
variable (cfg : Jobs.Settings) (quotas : QuotaSettings) (f : CaseFold) (q status : Option String)

/-- The page that was selected. -/
def Selection.page (x : Selection) : JobsPage :=
  listJobs f x.counted.jobs x.read.jobs pageSize x.offset q status

def Reader.step (s : Reader) : ReaderEvent → Option Reader
  | .site a => (Webhook.step cfg quotas s.site a).map fun site => { s with site := site }
  | .poll e =>
      if e.polls then (s.hook.step e).map fun hook => { s with hook := hook } else none
  | .count =>
      match s.hook.inflight, s.answering with
      | some _, .received => some { s with answering := .counted s.site }
      | _, _ => none
  | .select =>
      match s.answering with
      | .counted counted => some { s with answering := .selected counted s.site }
      | _ => none
  | .respond now =>
      match s.hook.inflight, s.answering with
      | some offset, .selected counted read =>
          let x : Selection := ⟨offset, counted, read⟩
          (s.hook.step (.resolve (x.page f q status) now)).map fun hook =>
            { s with hook := hook, answering := .received, shown := s.shown ++ [x] }
      | _, _ => none
  | .fail error =>
      (s.hook.step (.reject error)).map fun hook => { s with hook := hook, answering := .received }
  | .next => (s.pager.filter (·.hasNext)).bind fun pager => s.setOffset pager.next
  | .previous => (s.pager.filter (·.hasPrevious)).bind fun pager => s.setOffset pager.previous

/-- The Jobs page, opened while the server is in some state. -/
def jobsPage (site : Webhook.State) (visible : Bool) : System Reader ReaderEvent where
  init := { site := site, hook := (usePolling ⟨pollInterval, 0⟩ visible).init }
  step := Reader.step cfg quotas f q status

end

/-- The page shown is the one of the offset in force. -/
def Reader.current (s : Reader) : Bool := s.hook.data.any (·.askedUnder = s.hook.rendered.deps)

/-- Next is pressed only under the page that it turns. -/
def turnsShown (s : Reader) : ReaderEvent → Prop
  | .next => s.current = true
  | _ => True

/-- The page is shown, and there is no Next. -/
structure Reader.Finished (s : Reader) : Prop where
  loading : s.hook.loading = false
  error : s.hook.error = none
  current : s.current = true
  last : ∀ pager, s.pager = some pager → pager.hasNext = false

section
variable {cfg : Jobs.Settings} {quotas : QuotaSettings} {f : CaseFold} {q status : Option String}
  {s t : Reader} {e : ReaderEvent}

/-- The state in which the request that is out has been counted, or would be. -/
def Reader.counting (s : Reader) : Webhook.State :=
  match s.answering with
  | .received => s.site
  | .counted counted | .selected counted _ => counted

def Reader.reading (s : Reader) : Webhook.State :=
  match s.answering with
  | .received | .counted _ => s.site
  | .selected _ read => read

/-- What an event does: the server goes on, or the request gets on, or a page is stored, or the hook
does something else. -/
inductive ReaderMove (cfg : Jobs.Settings) (quotas : QuotaSettings) (f : CaseFold)
    (q status : Option String) (s : Reader) : ReaderEvent → Reader → Prop
  | site {a : Webhook.Action} {site : Webhook.State}
      (h : Webhook.step cfg quotas s.site a = some site) :
      ReaderMove cfg quotas f q status s (.site a) { s with site := site }
  | poll {e : Event Nat JobsPage String} {hook : Hook Nat JobsPage String}
      (h : s.hook.Polled hook) :
      ReaderMove cfg quotas f q status s (.poll e) { s with hook := hook }
  | count {offset : Nat} (hout : s.hook.inflight = some offset)
      (h : s.answering = .received) :
      ReaderMove cfg quotas f q status s .count { s with answering := .counted s.site }
  | select {counted : Webhook.State} (h : s.answering = .counted counted) :
      ReaderMove cfg quotas f q status s .select { s with answering := .selected counted s.site }
  | respond {now : Nat} {x : Selection} (hout : s.hook.inflight = some x.offset)
      (h : s.answering = .selected x.counted x.read) :
      ReaderMove cfg quotas f q status s (.respond now)
        { s with
          hook := { s.hook.settle with
            data := some ⟨x.page f q status, x.offset, s.hook.rendered.deps⟩
            error := none
            updatedAt := some now }
          answering := .received
          shown := s.shown ++ [x] }
  | fail {error : String} :
      ReaderMove cfg quotas f q status s (.fail error)
        { s with hook := { s.hook.settle with error := some error }, answering := .received }
  | next {pager : Pager} {hook : Hook Nat JobsPage String} (h : s.pager = some pager)
      (hnext : pager.hasNext = true) (hdata : hook.data = s.hook.data)
      (hinflight : hook.inflight = s.hook.inflight) (hrendered : hook.rendered.deps = pager.next) :
      ReaderMove cfg quotas f q status s .next { s with hook := hook }
  | previous {pager : Pager} {hook : Hook Nat JobsPage String} (h : s.pager = some pager)
      (hdata : hook.data = s.hook.data) (hinflight : hook.inflight = s.hook.inflight)
      (hrendered : hook.rendered.deps = pager.previous) :
      ReaderMove cfg quotas f q status s .previous { s with hook := hook }

end

/-- The statements are run one after another: those of the pages shown, and those of the request
that is out, in the states `counting` and `reading`. -/
structure Timely (cfg : Jobs.Settings) (quotas : QuotaSettings) (shown : List Selection)
    (counting reading site : Webhook.State) : Prop where
  reachable : (webhooks cfg quotas).Reachable anyStep counting
  counted : (webhooks cfg quotas).Run anyStep counting reading
  selected : (webhooks cfg quotas).Run anyStep reading site
  pages : ∀ x ∈ shown, (webhooks cfg quotas).Reachable anyStep x.counted ∧
    (webhooks cfg quotas).Run anyStep x.counted x.read
  order : shown.IsChain fun x y => (webhooks cfg quotas).Run anyStep x.read y.counted
  last : ∀ x ∈ shown.getLast?, (webhooks cfg quotas).Run anyStep x.read counting

def Reader.Timely (cfg : Jobs.Settings) (quotas : QuotaSettings) (s : Reader) : Prop :=
  AutoPR.Api.Timely cfg quotas s.shown s.counting s.reading s.site

section
variable {cfg : Jobs.Settings} {quotas : QuotaSettings} {shown : List Selection}
  {counting reading site site' : Webhook.State}

theorem Timely.later (h : Timely cfg quotas shown counting reading site)
    (hgoes : (webhooks cfg quotas).Run anyStep site site') :
    Timely cfg quotas shown counting reading site' :=
  ⟨h.reachable, h.counted, h.selected.trans hgoes, h.pages, h.order, h.last⟩

theorem Timely.reachable_site (h : Timely cfg quotas shown counting reading site) :
    (webhooks cfg quotas).Reachable anyStep site :=
  Reachable.run h.reachable (h.counted.trans h.selected)

theorem Timely.restart (h : Timely cfg quotas shown counting reading site) :
    Timely cfg quotas shown site site site :=
  ⟨h.reachable_site, .refl, .refl, h.pages, h.order,
    fun x hx => (h.last x hx).trans (h.counted.trans h.selected)⟩

theorem Timely.stored (offset : Nat) (h : Timely cfg quotas shown counting reading site) :
    Timely cfg quotas (shown ++ [⟨offset, counting, reading⟩]) site site site := by
  refine ⟨h.reachable_site, .refl, .refl, ?_, ?_, ?_⟩
  · intro x hx
    obtain hx | hx := List.mem_append.mp hx
    · exact h.pages x hx
    · rw [List.mem_singleton.mp hx]
      exact ⟨h.reachable, h.counted⟩
  · apply h.order.append (List.isChain_singleton _)
    rintro x hx y hy
    cases hy
    exact h.last x hx
  · intro x hx
    rw [List.getLast?_concat] at hx
    cases hx
    exact h.selected

end

section
variable {cfg : Jobs.Settings} {quotas : QuotaSettings} {f : CaseFold} {q status : Option String}
  {s t : Reader} {e : ReaderEvent}

end

/-- The offset of the last page stored. -/
def Reader.place (s : Reader) : Nat := (s.shown.getLast?.map (·.offset)).getD 0

/-- The reader is at most one page ahead of what is stored, and of what he has asked for. -/
structure Reader.Orderly (f : CaseFold) (q status : Option String) (s : Reader) : Prop where
  first : ∀ x ∈ s.shown.head?, x.offset = 0
  turns : s.shown.IsChain fun x y => y.offset ≤ x.offset + pageSize
  fresh : s.shown = [] → s.hook.data = none ∧ s.hook.rendered.deps = 0 ∧
    ∀ offset ∈ s.hook.inflight, offset = 0
  data : ∀ x ∈ s.shown.getLast?, ∃ stored, s.hook.data = some stored ∧
    stored.value = x.page f q status ∧ stored.askedUnder = x.offset
  rendered : s.hook.rendered.deps ≤ s.place + pageSize
  inflight : ∀ offset ∈ s.hook.inflight, offset ≤ s.place + pageSize ∧
    s.hook.rendered.deps ≤ offset + pageSize ∧
    (s.hook.rendered.deps = s.place → s.place ≤ offset)

section
variable {cfg : Jobs.Settings} {quotas : QuotaSettings} {f : CaseFold} {q status : Option String}
  {s t : Reader} {e : ReaderEvent}

theorem Reader.Orderly.polled (h : s.Orderly f q status) {hook : Hook Nat JobsPage String}
    (hpolled : s.hook.Polled hook) : Reader.Orderly f q status { s with hook := hook } := by
  refine ⟨h.first, h.turns, ?_, ?_, ?_, ?_⟩
  · intro hnone
    obtain ⟨hdata, hrendered, hout⟩ := h.fresh hnone
    refine ⟨hpolled.data.trans hdata, by rw [hpolled.rendered, hrendered], ?_⟩
    obtain hsame | ⟨-, hasked⟩ := hpolled.inflight
    · rwa [hsame]
    · intro offset hoffset
      rw [hasked] at hoffset
      cases hoffset
      exact hrendered
  · intro x hx
    dsimp only
    rw [hpolled.data]
    exact h.data x hx
  · dsimp only
    rw [hpolled.rendered]
    exact h.rendered
  · dsimp only
    rw [hpolled.rendered]
    obtain hsame | ⟨-, hasked⟩ := hpolled.inflight
    · rw [hsame]
      exact h.inflight
    · intro offset hoffset
      rw [hasked] at hoffset
      cases hoffset
      exact ⟨h.rendered, Nat.le_add_right _ _, fun hplace => hplace.ge⟩

theorem pager_cases {pager : Pager} (h : s.pager = some pager) :
    ∃ stored, s.hook.data = some stored ∧
      pager = ⟨stored.value.total, pageSize, s.hook.rendered.deps⟩ := by
  unfold Reader.pager at h
  split at h
  · cases h
  · obtain ⟨page, hpage, hpager⟩ := Option.bind_eq_some_iff.mp h
    obtain ⟨stored, hstored, rfl⟩ := Option.map_eq_some_iff.mp hpage
    split at hpager
    · cases hpager
    · exact ⟨stored, hstored, (Option.some.inj hpager).symm⟩

theorem Reader.Orderly.shown_ne (h : s.Orderly f q status) {stored : Stored Nat JobsPage}
    (hdata : s.hook.data = some stored) : ∃ x, s.shown.getLast? = some x := by
  apply Option.isSome_iff_exists.mp
  rw [List.getLast?_isSome]
  intro hnone
  cases hdata.symm.trans (h.fresh hnone).1

theorem Reader.Orderly.current_place (h : s.Orderly f q status) (hcurrent : s.current = true) :
    ∃ x, s.shown.getLast? = some x ∧ s.hook.rendered.deps = x.offset ∧ s.place = x.offset := by
  obtain ⟨stored, hdata, hasked⟩ := (Option.any_eq_true _ _).mp hcurrent
  obtain ⟨x, hx⟩ := h.shown_ne hdata
  obtain ⟨stored', hdata', -, hoffset⟩ := h.data x hx
  cases hdata.symm.trans hdata'
  refine ⟨x, hx, (of_decide_eq_true hasked).symm.trans hoffset, ?_⟩
  unfold Reader.place
  rw [hx]
  rfl

theorem Reader.Orderly.stored (h : s.Orderly f q status) {x : Selection}
    (hout : s.hook.inflight = some x.offset) {t : Reader} (hshown : t.shown = s.shown ++ [x])
    (hdata : ∃ stored, t.hook.data = some stored ∧ stored.value = x.page f q status ∧
      stored.askedUnder = x.offset)
    (hrendered : t.hook.rendered = s.hook.rendered) (hrest : t.hook.inflight = none) :
    t.Orderly f q status := by
  obtain ⟨hahead, hbehind, -⟩ := h.inflight x.offset hout
  have hlast : t.shown.getLast? = some x := by rw [hshown, List.getLast?_concat]
  have hplace : t.place = x.offset := by
    unfold Reader.place
    rw [hlast]
    rfl
  refine ⟨?_, ?_, ?_, ?_, ?_, ?_⟩
  · rw [hshown]
    cases hold : s.shown with
    | nil =>
      intro y hy
      cases hy
      exact (h.fresh hold).2.2 x.offset hout
    | cons y rest =>
      have hfirst := h.first
      rw [hold] at hfirst
      exact hfirst
  · rw [hshown]
    apply h.turns.append (List.isChain_singleton _)
    rintro y hy x' hx'
    cases hx'
    have hold : s.place = y.offset := by
      unfold Reader.place
      rw [Option.mem_def.mp hy]
      rfl
    rw [← hold]
    exact hahead
  · intro hnone
    rw [hnone] at hlast
    cases hlast
  · intro y hy
    cases hlast.symm.trans hy
    exact hdata
  · rw [hrendered, hplace]
    exact hbehind
  · intro offset hoffset
    rw [hrest] at hoffset
    cases hoffset

theorem Reader.Orderly.turned (h : s.Orderly f q status) {hook : Hook Nat JobsPage String}
    (hdata : hook.data = s.hook.data) (hinflight : hook.inflight = s.hook.inflight)
    (hshown : s.shown ≠ []) (hrendered : hook.rendered.deps ≤ s.place + pageSize)
    (hout : ∀ offset ∈ s.hook.inflight, hook.rendered.deps ≤ offset + pageSize ∧
      (hook.rendered.deps = s.place → s.place ≤ offset)) :
    Reader.Orderly f q status { s with hook := hook } := by
  refine ⟨h.first, h.turns, fun hnone => absurd hnone hshown, ?_, hrendered, ?_⟩
  · dsimp only
    rw [hdata]
    exact h.data
  · dsimp only
    rw [hinflight]
    exact fun offset hoffset => ⟨(h.inflight offset hoffset).1, hout offset hoffset⟩

theorem Reader.Orderly.next (h : s.Orderly f q status) (hcurrent : s.current = true)
    {pager : Pager} (hpager : s.pager = some pager) {hook : Hook Nat JobsPage String}
    (hdata : hook.data = s.hook.data) (hinflight : hook.inflight = s.hook.inflight)
    (hrendered : hook.rendered.deps = pager.next) :
    Reader.Orderly f q status { s with hook := hook } := by
  obtain ⟨x, hx, hdeps, hplace⟩ := h.current_place hcurrent
  obtain ⟨stored, -, rfl⟩ := pager_cases hpager
  have hnext : hook.rendered.deps ≤ s.hook.rendered.deps + pageSize := by
    rw [hrendered]
    exact Nat.min_le_right _ _
  apply h.turned hdata hinflight
  · rintro hnone
    rw [hnone] at hx
    cases hx
  · omega
  · intro offset hoffset
    have hbehind := (h.inflight offset hoffset).2.2 (by omega)
    omega

theorem Reader.Orderly.previous (h : s.Orderly f q status) {pager : Pager}
    (hpager : s.pager = some pager) {hook : Hook Nat JobsPage String}
    (hdata : hook.data = s.hook.data) (hinflight : hook.inflight = s.hook.inflight)
    (hrendered : hook.rendered.deps = pager.previous) :
    Reader.Orderly f q status { s with hook := hook } := by
  obtain ⟨stored, hstored, rfl⟩ := pager_cases hpager
  obtain ⟨x, hx⟩ := h.shown_ne hstored
  have hprevious : hook.rendered.deps = s.hook.rendered.deps - pageSize := hrendered
  have hbound := h.rendered
  apply h.turned hdata hinflight
  · rintro hnone
    rw [hnone] at hx
    cases hx
  · omega
  · intro offset hoffset
    obtain ⟨-, hbehind, -⟩ := h.inflight offset hoffset
    omega

theorem Reader.Orderly.move (h : s.Orderly f q status) (hturns : turnsShown s e)
    (hmove : ReaderMove cfg quotas f q status s e t) : t.Orderly f q status := by
  cases hmove with
  | site => exact ⟨h.first, h.turns, h.fresh, h.data, h.rendered, h.inflight⟩
  | poll hpolled => exact h.polled hpolled
  | count => exact ⟨h.first, h.turns, h.fresh, h.data, h.rendered, h.inflight⟩
  | select => exact ⟨h.first, h.turns, h.fresh, h.data, h.rendered, h.inflight⟩
  | respond hout => exact h.stored hout rfl ⟨_, rfl, rfl, rfl⟩ rfl rfl
  | fail =>
    refine ⟨h.first, h.turns, fun hnone => ?_, h.data, h.rendered, fun _ hout => by cases hout⟩
    obtain ⟨hdata, hrendered, -⟩ := h.fresh hnone
    exact ⟨hdata, hrendered, fun _ hout => by cases hout⟩
  | next hpager hnext hdata hinflight hrendered =>
    exact h.next hturns hpager hdata hinflight hrendered
  | previous hpager hdata hinflight hrendered =>
    exact h.previous hpager hdata hinflight hrendered

end

section
variable {cfg : Jobs.Settings} {quotas : QuotaSettings} {f : CaseFold} {q status : Option String}
  {filter : Option JobStatus} {site : Webhook.State} {visible : Bool} {s : Reader} {x : Selection}

def Selection.look (f : CaseFold) (q : Option String) (filter : Option JobStatus)
    (x : Selection) : Look JobId where
  total := (listedJobs f q filter x.counted.jobs).length
  list := listedJobs f q filter x.read.jobs
  offset := x.offset

end

def looking : List ReaderEvent := [.poll .effect, .count, .select, .respond 1]

def looked : Reader :=
  (jobsPage .small .one .ascii none none Webhook.raced true).after looking (by decide)

/-- The page at the offset has been turned to, and not been asked for. -/
structure Reader.Asking (s : Reader) (offset : Nat) : Prop where
  due : s.hook.effectDue = true
  rendered : s.hook.rendered = ⟨pollInterval, offset⟩
  rest : s.hook.inflight = none
  answering : s.answering = .received

structure Reader.Reading (f : CaseFold) (q status : Option String) (s : Reader) (offset : Nat) :
    Prop where
  due : s.hook.effectDue = false
  loading : s.hook.loading = false
  error : s.hook.error = none
  data : s.hook.data =
    some ⟨Selection.page f q status ⟨offset, s.site, s.site⟩, offset, offset⟩
  rendered : s.hook.rendered = ⟨pollInterval, offset⟩
  rest : s.hook.inflight = none
  answering : s.answering = .received

section
variable (cfg : Jobs.Settings) (quotas : QuotaSettings) (site : Webhook.State) (visible : Bool)
  {f : CaseFold} {q status : Option String} {filter : Option JobStatus} {s : Reader} {offset : Nat}

theorem Reader.Asking.answered (h : s.Asking offset) :
    ∃ t, (jobsPage cfg quotas f q status site visible).Run turnsShown s t ∧
      t.Reading f q status offset ∧ t.site = s.site ∧
      t.shown = s.shown ++ [⟨offset, s.site, s.site⟩] := by
  obtain ⟨site, hook, answering, shown⟩ := s
  obtain ⟨data, error, loading, refreshing, updatedAt, rendered, due, listening, visible, out,
    asked⟩ := hook
  obtain ⟨hdue, hrendered, hrest, hanswering⟩ := h
  cases hdue
  cases hrendered
  cases hrest
  cases hanswering
  refine ⟨_, @Run.of_exec _ _ _ _ _ _ [.poll .effect, .count, .select, .respond 0] rfl
    ⟨trivial, trivial, trivial, trivial, trivial⟩, ?_, rfl, rfl⟩
  exact ⟨rfl, rfl, rfl, rfl, rfl, rfl, rfl⟩

theorem Reader.Reading.pager_eq (h : s.Reading f q status offset)
    (hjobs : (Selection.page f q status ⟨offset, s.site, s.site⟩).jobs ≠ []) :
    s.pager = some ⟨(Selection.page f q status ⟨offset, s.site, s.site⟩).total, pageSize, offset⟩ := by
  unfold Reader.pager
  rw [h.loading, h.error, h.data, h.rendered]
  exact if_neg hjobs

theorem Reader.Reading.current (h : s.Reading f q status offset) : s.current = true := by
  unfold Reader.current
  rw [h.data, h.rendered]
  exact decide_eq_true rfl

theorem Reader.Reading.finished (h : s.Reading f q status offset)
    (hlast : Pager.hasNext ⟨(Selection.page f q status ⟨offset, s.site, s.site⟩).total, pageSize,
      offset⟩ = false) : s.Finished := by
  refine ⟨h.loading, h.error, h.current, fun pager hpager => ?_⟩
  obtain ⟨stored, hstored, rfl⟩ := pager_cases hpager
  cases h.data.symm.trans hstored
  rw [h.rendered]
  exact hlast

theorem Reader.Reading.setOffset (h : s.Reading f q status offset) {next : Nat}
    (hne : next ≠ offset) :
    ∃ t, s.setOffset next = some t ∧ t.Asking next ∧ t.site = s.site ∧ t.shown = s.shown := by
  refine ⟨{ s with hook := { s.hook with
      rendered := ⟨pollInterval, next⟩, effectDue := true, asked := false } }, ?_,
    ⟨rfl, rfl, h.rest, h.answering⟩, rfl, rfl⟩
  have hkey : (⟨pollInterval, next⟩ : EffectKey Nat) ≠ ⟨pollInterval, offset⟩ :=
    fun heq => hne (congrArg EffectKey.deps heq)
  dsimp only [Reader.setOffset, Hook.step]
  rw [h.due, h.rendered, decide_eq_true hkey, decide_eq_false hne, Bool.and_false]
  rfl

theorem Reader.Reading.turned {k : Nat} (h : s.Reading f q status (pageSize * k))
    (hfilter : statusFilter status = some filter)
    (hnext : Pager.hasNext ⟨(Selection.page f q status ⟨pageSize * k, s.site, s.site⟩).total,
      pageSize, pageSize * k⟩ = true) :
    ∃ t, (jobsPage cfg quotas f q status site visible).Run turnsShown s t ∧
      t.Asking (pageSize * (k + 1)) ∧ t.site = s.site ∧ t.shown = s.shown := by
  have hsize : 0 < pageSize := by decide
  have hmore : pageSize * k + pageSize < (listedJobs f q filter s.site.jobs).length :=
    ((hasNext_iff _).mp hnext).trans_eq (listJobs_total hfilter)
  have hjobs : (Selection.page f q status ⟨pageSize * k, s.site, s.site⟩).jobs ≠ [] := by
    intro hnone
    have hids : (Selection.page f q status ⟨pageSize * k, s.site, s.site⟩).jobs.map (·.id) =
      page pageSize (pageSize * k) (listedJobs f q filter s.site.jobs) := listJobs_ids hfilter _
    have hlength := congrArg List.length hids
    rw [hnone, page, List.length_take, List.length_drop, List.map_nil, List.length_nil] at hlength
    omega
  have hturn : Pager.next ⟨(Selection.page f q status ⟨pageSize * k, s.site, s.site⟩).total,
      pageSize, pageSize * k⟩ = pageSize * (k + 1) := next_eq hsize rfl hnext
  have hne : pageSize * (k + 1) ≠ pageSize * k := by
    rw [Nat.mul_succ]
    omega
  obtain ⟨t, ht, hasking, hsite, hshown⟩ := h.setOffset hne
  refine ⟨t, Run.single (a := .next) h.current ?_, hasking, hsite, hshown⟩
  change (s.pager.filter (·.hasNext)).bind _ = some t
  rw [h.pager_eq hjobs, Option.filter_some, if_pos hnext, Option.bind_some, hturn, ht]

theorem readAll_reached (hfilter : statusFilter status = some filter) {k n : Nat}
    {pages : List JobsPage} (h : s.Asking (pageSize * k))
    (hpages : readAll f q status (pageSize * k) (List.replicate n (s.site.jobs, s.site.jobs)) =
      some pages) :
    ∃ t, (jobsPage cfg quotas f q status site visible).Run turnsShown s t ∧ t.Finished ∧
      t.shown.map (Selection.page f q status) =
        s.shown.map (Selection.page f q status) ++ pages := by
  induction n generalizing s k pages with
  | zero => cases hpages
  | succ n ih =>
    obtain ⟨t, hrun, hreading, hsite, hshown⟩ := h.answered cfg quotas site visible
    rw [List.replicate_succ] at hpages
    unfold readAll at hpages
    dsimp only at hpages
    split at hpages
    · rename_i hnext
      have hsize : 0 < pageSize := by decide
      obtain ⟨later, hlater, rfl⟩ := Option.map_eq_some_iff.mp hpages
      rw [next_eq hsize rfl hnext, ← Nat.mul_succ] at hlater
      rw [← hsite] at hnext
      obtain ⟨u, hturn, hasking, hsite', hshown'⟩ :=
        hreading.turned cfg quotas site visible hfilter hnext
      rw [← hsite, ← hsite'] at hlater
      obtain ⟨v, hrest, hfinished, hpages⟩ := ih hasking hlater
      refine ⟨v, (hrun.trans hturn).trans hrest, hfinished, ?_⟩
      rw [hpages, hshown', hshown, List.map_append, List.append_assoc]
      rfl
    · rename_i hlast
      cases hpages
      rw [← hsite] at hlast
      refine ⟨t, hrun, hreading.finished (eq_false_of_ne_true hlast), ?_⟩
      rw [hshown, List.map_append]
      rfl

end

end AutoPR.Api
