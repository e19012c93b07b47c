import AutoPR.Commands.Authorization
import AutoPR.Commands.Grammar
import AutoPR.Library.Delimited
import AutoPR.Routing.Notices
import AutoPR.Routing.Origin

/-! What the program says in a thread, read back by its own parser. It never answers itself, and a
maintainer who copies a command out of its notice says what the notice means. -/
namespace AutoPR.Commands
open Python Pattern UnitOfWork Relational Routing Tenancy Transition

/-- The text begins with a character that is neither white space nor the slash of a command. -/
def isProse (body : String) : Bool :=
  body.toList.head?.any fun c => !isSpace c && !isLineBreak c && c.toLower ≠ '/'

section
variable {u : Unicode} {a b body : String}

theorem isProse_append (b : String) (h : isProse a = true) : isProse (a ++ b) = true := by
  unfold isProse at h ⊢
  rw [String.toList_append]
  cases ha : a.toList with
  | nil =>
    rw [ha] at h
    cases h
  | cons c rest =>
    rw [ha] at h
    exact h

theorem isProse_intercalate (sep : String) (rest : List String) (h : isProse a = true) :
    isProse (sep.intercalate (a :: rest)) = true := by
  cases rest with
  | nil => simpa using h
  | cons b rest =>
    rw [String.intercalate_cons_cons, String.append_assoc]
    exact isProse_append _ h

theorem linesFrom_head (line : List Char) (hne : line ≠ []) (text : List Char) :
    ∃ more rest, linesFrom line text = String.ofList (line.reverse ++ more) :: rest := by
  fun_induction linesFrom line text with
  | case1 => exact absurd rfl hne
  | case2 line h => exact ⟨[], [], by rw [List.append_nil]⟩
  | case3 line rest ih => exact ⟨[], linesFrom [] rest, by rw [List.append_nil]⟩
  | case4 line c rest _ hbreak ih => exact ⟨[], linesFrom [] rest, by rw [List.append_nil]⟩
  | case5 line c rest _ hbreak ih =>
    obtain ⟨more, after, heq⟩ := ih (List.cons_ne_nil c line)
    exact ⟨c :: more, after, by rw [heq, List.reverse_cons, List.append_assoc, List.singleton_append]⟩

theorem contentLine_prose (h : isProse body = true) :
    ∃ c rest, contentLine body = some (String.ofList (c :: rest)) ∧ c.toLower ≠ '/' := by
  unfold isProse at h
  cases hbody : body.toList with
  | nil =>
    rw [hbody] at h
    cases h
  | cons c text =>
    rw [hbody] at h
    simp only [List.head?_cons, Option.any_some, Bool.and_eq_true, Bool.not_eq_true',
      decide_eq_true_eq] at h
    obtain ⟨⟨hspace, hbreak⟩, hslash⟩ := h
    have hline : ∃ more rest, splitLines body = String.ofList (c :: more) :: rest := by
      unfold splitLines
      rw [hbody, linesFrom.eq_def]
      split
      · rename_i heq
        cases heq
      · rename_i heq
        cases heq
        cases hbreak
      · rename_i c' rest' _ heq
        cases heq
        rw [hbreak, if_neg Bool.false_ne_true]
        exact linesFrom_head [c] (List.cons_ne_nil _ _) text
    obtain ⟨more, rest, hline⟩ := hline
    have hstrip : ∃ kept, strip (String.ofList (c :: more)) = String.ofList (c :: kept) := by
      unfold strip stripOf
      rw [String.toList_ofList, List.dropWhile_cons_of_neg (by simp [hspace]), List.reverse_cons]
      rw [dropWhile_append_of_front (List.cons_ne_nil _ _)
        (fun d hd => by cases hd; exact hspace), List.reverse_append]
      exact ⟨_, rfl⟩
    obtain ⟨kept, hstrip⟩ := hstrip
    refine ⟨c, kept, ?_, hslash⟩
    unfold contentLine
    rw [hline, List.map_cons, hstrip]
    apply List.find?_cons_of_pos
    simp

theorem parseCommand_prose (h : isProse body = true) : parseCommand u (.str body) = .ok none := by
  obtain ⟨c, rest, hline, hslash⟩ := contentLine_prose h
  rw [parseCommand_str, hline, Option.bind_some]
  have hmiss : (prefixRegex u).matchPrefix (c :: rest) = none := by
    cases hmatch : (prefixRegex u).matchPrefix (c :: rest) with
    | none => rfl
    | some found =>
      obtain ⟨p, hp, -, -⟩ := Regex.matchPrefix_eq_some hmatch
      obtain ⟨m, hauto, -⟩ := Regex.mem_run_seq.mp hp
      obtain ⟨text, hauto, -, hrest⟩ := mem_word (by decide) hauto
      cases text with
      | nil => cases hauto
      | cons d text =>
        obtain rfl := (List.cons.inj hrest).1
        exact absurd (List.cons.inj hauto).1 hslash
  unfold parseLine
  rw [String.toList_ofList, hmiss]

end

section
variable {u : Unicode} {cfg : Routing.Settings} {state : PRState} {decision : RoutingDecision}

theorem renderReviewBody_prose {body : String} (h : renderReviewBody u state = .ok body) :
    isProse body = true := by
  unfold renderReviewBody at h
  obtain ⟨summary, -, h⟩ := ok_of_bind h
  obtain ⟨found, -, h⟩ := ok_of_bind h
  obtain ⟨tests, -, h⟩ := ok_of_bind h
  rw [← Except.ok.inj h, List.append_assoc, List.cons_append]
  exact isProse_intercalate _ _ (by decide)

theorem renderFixBody_prose {body : String} (h : renderFixBody u state = .ok body) :
    isProse body = true := by
  unfold renderFixBody at h
  obtain ⟨diag, -, h⟩ := ok_of_bind h
  obtain ⟨fix, -, h⟩ := ok_of_bind h
  rw [← Except.ok.inj h]
  exact isProse_intercalate _ _ (by decide)

theorem renderEscalationBody_prose {body : String} (h : renderEscalationBody u state = .ok body) :
    isProse body = true := by
  unfold renderEscalationBody at h
  obtain ⟨diag, -, h⟩ := ok_of_bind h
  obtain ⟨out, -, h⟩ := ok_of_bind h
  rw [← Except.ok.inj h, List.cons_append]
  exact isProse_intercalate _ _ (by decide)

theorem route_prose (h : route cfg state = .ok decision) (hact : decision.isActionable = true) :
    isProse decision.body = true := by
  unfold route at h
  split at h
  · unfold routeCi at h
    dsimp only at h
    split at h
    · obtain ⟨body, hbody, h⟩ := ok_of_bind h
      cases h
      exact renderFixBody_prose hbody
    · split at h
      · cases h
        cases hact
      · obtain ⟨body, hbody, h⟩ := ok_of_bind h
        cases h
        exact renderEscalationBody_prose hbody
  · unfold routePr at h
    obtain ⟨body, hbody, h⟩ := ok_of_bind h
    cases h
    exact renderReviewBody_prose hbody

theorem queuedNotice_prose (d : DecisionId) (action : String) (risk : PyVal) :
    isProse (queuedNotice u d action risk) = true := by
  unfold queuedNotice
  simp only [String.append_assoc]
  exact isProse_append _ (by decide)

theorem replyText_prose (d : DecisionId) (verb : Verb) (outcome : Outcome) {text : String}
    (h : replyText d verb outcome = some text) : isProse text = true := by
  unfold replyText at h
  split at h <;> cases h
  all_goals
    simp only [String.append_assoc]
    exact isProse_append _ (by decide)

theorem helpText_prose : isProse helpText = true := by
  unfold helpText
  simp only [String.append_assoc]
  exact isProse_append _ (by decide)

theorem statusText_prose (pending : List (DecisionId × ReviewDecision)) :
    isProse (statusText u pending) = true := by
  unfold statusText
  split
  · decide
  · rw [List.append_assoc, List.cons_append]
    apply isProse_intercalate
    rw [String.append_assoc]
    exact isProse_append _ (by decide)

end

/-- The comment that a deed hands to GitHub. -/
def Deed.comment : Deed → Option Comment
  | .posted _ _ comment _ | .replied _ comment _ => some comment
  | .asked .. | .wrote .. => none

structure Civil (s : Desk) : Prop where
  rows : ∀ d row, s.rows d = some row → isProse row.body = true
  deeds : ∀ deed ∈ s.deeds, ∀ comment, deed.comment = some comment → isProse comment.body = true

def Polite (s t : Desk) : Prop := Civil s → Civil t

section
variable {cfg : CommandSettings} {w : Nat → Moment} {db : Database} {client : Client}
  {d : DecisionId} {repo actor body : String} {n : Int} {row : ReviewDecision} {s t : Desk}

theorem Polite.refl (s : Desk) : Polite s s := id

theorem Polite.trans (s t v : Desk) (h : Polite s t) (h' : Polite t v) : Polite s v := h' ∘ h

theorem Silent.polite (h : Silent s t) : Polite s t := by
  intro hs
  refine ⟨fun d row hrow => hs.rows d row (h.rows ▸ hrow), fun deed hdeed comment hcomment => ?_⟩
  obtain hold | hasked := h.deeds deed hdeed
  · exact hs.deeds deed hold comment hcomment
  · cases deed with
    | asked => cases hcomment
    | wrote | posted | replied => cases hasked

theorem send_polite {comment : Comment} {deed : Bool → Deed}
    (hdeed : ∀ ok, (deed ok).comment = some comment) (h : isProse comment.body = true) :
    Keeps Polite (send w client comment deed) := by
  intro s hs
  obtain ⟨ok, heq⟩ := send_final w client s comment deed
  rw [heq]
  refine ⟨hs.rows, fun found hfound said hsaid => ?_⟩
  obtain rfl | hold := List.mem_cons.mp hfound
  · obtain rfl := Option.some.inj ((hdeed ok).symm.trans hsaid)
    exact h
  · exact hs.deeds found hold said hsaid

theorem sendReply_polite (h : isProse body = true) :
    Keeps Polite (sendReply w client repo n body) :=
  Keeps.bind Polite.trans (send_polite (fun _ => rfl) h) fun _ => Keeps.pure Polite.refl _

theorem store_polite (row : ReviewDecision) (h : isProse row.body = true) :
    Keeps Polite (store d row) := by
  intro s hs
  refine ⟨fun d' row' hrow => ?_, fun deed hdeed comment hcomment => ?_⟩
  · change Function.update s.rows d (some row) d' = some row' at hrow
    by_cases hd : d' = d
    · subst hd
      rw [Function.update_self] at hrow
      cases hrow
      exact h
    · rw [Function.update_of_ne hd] at hrow
      exact hs.rows d' row' hrow
  · obtain rfl | hold := List.mem_cons.mp hdeed
    · cases hcomment
    · exact hs.deeds deed hold comment hcomment

theorem perform_polite (h : isProse row.body = true) :
    Keeps Polite (perform cfg w client d row) := by
  refine Keeps.bind_of Polite.trans (orRaise_keeps Polite.refl _) fun made s t hmade => ?_
  cases made with
  | none => exact Keeps.pure Polite.refl _
  | some comment =>
    have hbody : comment.body = row.body := by
      obtain ⟨hcomment, -⟩ := orRaise_ok hmade
      unfold ReviewDecision.comment at hcomment
      obtain ⟨action, -, hcomment⟩ := ok_of_bind hcomment
      exact executeDecision_body hcomment
    exact send_polite (fun _ => rfl) (hbody ▸ h)

theorem settle_polite (h : isProse row.body = true) (result : ActionResult) :
    Keeps Polite (settle w client d repo n actor row result) := by
  refine Keeps.ite ?_ ?_
  · exact Keeps.bind Polite.trans (store_polite (row.markExecuted _ _) h) fun _ =>
      Keeps.pure Polite.refl _
  · refine Keeps.bind Polite.trans (store_polite (row.markFailed _ _) h) fun _ => ?_
    refine Keeps.bind Polite.trans (sendReply_polite ?_) fun _ => Keeps.pure Polite.refl _
    exact replyText_prose _ .approve (.actionFailed result.detail) rfl

theorem execute_polite (row : ReviewDecision) (h : isProse row.body = true) :
    Keeps Polite (execute cfg w client d repo n actor row) :=
  Keeps.bind Polite.trans (perform_polite h) (settle_polite h)

theorem approve_polite : Keeps Polite (approve cfg w client d repo n actor) := by
  intro s hs
  cases hrow : s.rows d with
  | none =>
    have hnone : claimApproval d s = .ok (none, .notFound) s := by
      unfold claimApproval
      rw [bind_of_ok (rfl : (get : Handling Desk) s = .ok s s), hrow]
      rfl
    unfold approve
    rw [final_bind_ok hnone]
    exact hs
  | some row =>
    have hbody := hs.rows d row hrow
    unfold approve
    cases hopen : row.status.takeable with
    | true =>
      rw [final_bind_ok (claimApproval_open hrow hopen)]
      have hstored : Civil (final (store d { row with status := .approved }) s) :=
        store_polite { row with status := .approved } hbody s hs
      exact execute_polite { row with status := .approved } hbody _ hstored
    | false =>
      rw [final_bind_ok (claimApproval_closed hrow hopen)]
      cases hst : row.status with
      | executed =>
        exact sendReply_polite (replyText_prose _ .approve .alreadyExecuted rfl) s hs
      | rejected =>
        exact sendReply_polite (replyText_prose _ .approve .wasRejected rfl) s hs
      | approved | pending | failed =>
        exact sendReply_polite (replyText_prose _ .approve .inProgress rfl) s hs

theorem reject_polite : Keeps Polite (reject w client d repo n actor) := by
  intro s hs
  cases hrow : s.rows d with
  | none =>
    have hnone : rejectPending d s = .ok (none, .notFound) s := by
      unfold rejectPending
      rw [bind_of_ok (rfl : (get : Handling Desk) s = .ok s s), hrow]
      rfl
    unfold reject
    rw [final_bind_ok hnone]
    exact hs
  | some row =>
    unfold reject
    by_cases hopen : row.status = .pending
    · rw [final_bind_ok (rejectPending_open hrow hopen)]
      exact store_polite { row with status := .rejected } (hs.rows d row hrow) s hs
    · rw [final_bind_ok (rejectPending_closed hrow hopen)]
      by_cases hexec : row.status = .executed
      · rw [if_pos hexec]
        exact sendReply_polite (replyText_prose _ .reject .alreadyExecuted rfl) s hs
      · rw [if_neg hexec]
        exact sendReply_polite (replyText_prose _ .reject .inProgress rfl) s hs

theorem obey_polite (c : Cleared) : Keeps Polite (obey cfg w db c) := by
  refine Keeps.bind Polite.trans (orRaise_keeps Polite.refl _) fun n => ?_
  refine Keeps.ite (sendReply_polite helpText_prose) (Keeps.ite ?_ ?_)
  · exact Keeps.bind Polite.trans (fun s => Polite.refl s) fun _ => sendReply_polite (statusText_prose _)
  · split
    · apply sendReply_polite
      simp only [String.append_assoc]
      exact isProse_append _ (by decide)
    · rename_i d _
      refine Keeps.bind Polite.trans (fun s => Polite.refl s) fun found => ?_
      cases found with
      | none =>
        exact sendReply_polite (replyText_prose _ .approve .noDecision rfl)
      | some row => exact Keeps.ite reject_polite approve_polite

theorem handleIssueComment_polite {configured : Bool} {payload : PyVal} :
    Keeps Polite (handleIssueComment cfg w db configured payload) := by
  refine Keeps.bind Polite.trans (fun s => (clear_silent s).polite) fun found => ?_
  cases found with
  | error result => exact Keeps.pure Polite.refl _
  | ok c => exact obey_polite c

end

/-- The stored bodies are prose, and so is what requests post, or are about to reply. -/
structure Spoken (s : Routing.State) : Prop where
  rows : ∀ d row, s.rows d = some row → isProse row.body = true
  replying : ∀ q comment outcome, s.requests q = .replying comment outcome →
    isProse comment.body = true
  posted : ∀ q target comment ok, .posted (.request q) target comment ok ∈ s.events →
    isProse comment.body = true
  replied : ∀ q comment ok, .replied q comment ok ∈ s.events → isProse comment.body = true

section
variable {cfg : Routing.Settings} {s t : Routing.State} {a : Step}

theorem finish_replying (channel : Channel) (d : DecisionId) (verb : Verb) (result : Outcome)
    {comment : Comment} {outcome : Outcome} (h : channel.finish d verb result = .replying comment outcome) :
    isProse comment.body = true := by
  cases channel with
  | ops => cases h
  | comment repo n i =>
    unfold Channel.finish at h
    dsimp only at h
    split at h
    · rename_i text htext
      cases h
      exact replyText_prose _ _ _ htext
    · cases h

theorem afterClaimed_replying {channel : Channel} {d : DecisionId} {copy : ReviewDecision}
    {comment : Comment} {outcome : Outcome}
    (h : afterClaimed cfg channel d copy = .replying comment outcome) : False := by
  obtain ⟨-, heq⟩ | heq := afterClaimed_cases cfg channel d copy <;> cases heq.symm.trans h

theorem afterClaim_replying {q : RequestId} {channel : Channel} {d : DecisionId}
    {copy : ReviewDecision} {won : Bool} {comment : Comment} {outcome : Outcome}
    (h : (afterClaim cfg q channel d copy won).pc = .replying comment outcome) :
    isProse comment.body = true := by
  cases won with
  | true => exact (afterClaimed_replying h).elim
  | false =>
    replace h : afterLost channel d copy = .replying comment outcome := h
    obtain ⟨result, heq⟩ | ⟨-, heq⟩ := afterLost_cases channel d copy
    · exact finish_replying _ _ _ _ (heq.symm.trans h)
    · cases heq.symm.trans h

theorem move_replying {rows : DecisionTable} {nextId : DecisionId} {q : RequestId}
    {pc : RequestPc} {act : RequestAct} {eff : Effect RequestPc} {comment : Comment}
    {outcome : Outcome} (h : RequestMove cfg rows nextId q pc act eff)
    (heff : eff.pc = .replying comment outcome) : isProse comment.body = true := by
  cases h with
  | begin verb channel d =>
    replace heff : startRequest cfg verb channel d = .replying comment outcome := heff
    unfold startRequest at heff
    split at heff
    · split at heff
      · cases heff
      · cases verb <;> cases heff
    · cases heff
  | lookNone verb repo n i d => exact finish_replying (.comment repo n i) d verb .noDecision heff
  | retryLost channel d copy => exact finish_replying channel d .approve .inProgress heff
  | mark channel d copy result => exact finish_replying channel d .approve _ heff
  | claimWon channel d held | claimLost channel d held =>
    cases held with
    | none => cases heff
    | some copy => exact afterClaim_replying heff
  | load d won row => exact afterClaim_replying heff
  | retryWon => exact (afterClaimed_replying heff).elim
  | post channel d copy outcome => cases outcome <;> cases heff
  | rejectWon channel d held | rejectLost channel d held =>
    cases held with
    | none => cases heff
    | some copy => exact finish_replying channel d .reject _ heff
  | loadRejected d won row => exact finish_replying .ops d .reject _ heff
  | reply made outcome result => cases result <;> cases heff
  | _ => cases heff

theorem Spoken.initial {ledger : Ledger}
    (hledger : ∀ d row, ledger.rows d = some row → isProse row.body = true) :
    Spoken (.initial ledger) where
  rows := hledger
  replying q comment outcome h := by cases h
  posted q d comment ok h := by cases h
  replied q comment ok h := by cases h

theorem Spoken.step (hs : Spoken s) (hwf : WellFormed cfg s) (hg : Gated cfg s)
    (h : step cfg s a = some t) : Spoken t where
  rows d row hrow := by
    obtain hsame | ⟨-, -, r, run, key, new, -, hpc, -, hnew⟩ | ⟨old, new, hold, hnew, hcontent⟩ :=
      step_rows h d
    · exact hs.rows d row (hsame ▸ hrow)
    · cases hnew.symm.trans hrow
      obtain ⟨-, -, -, hbody⟩ := newDecision_key (hwf.inserting r run key row hpc)
      obtain ⟨-, hroute, hact⟩ := hg.run r run (by rw [hpc]; rfl)
      rw [hbody]
      exact route_prose hroute hact
    · cases hnew.symm.trans hrow
      have hbody : row.body = old.body := congrArg (·.body) hcontent
      rw [hbody]
      exact hs.rows d old hold
  replying q comment outcome hpc := by
    obtain hsame | ⟨act, eff, rfl, hmove, rfl⟩ := step_requests h q
    · exact hs.replying q comment outcome (hsame ▸ hpc)
    · rw [applyRequest_self] at hpc
      exact move_replying hmove hpc
  posted q target comment ok he := by
    cases a with
    | router r act =>
      obtain ⟨eff, hmove, rfl⟩ := step_router h
      obtain hnew | hold := List.mem_append.mp he
      · obtain ⟨_, _, -, heq, -⟩ | ⟨_, _, _, heq⟩ | ⟨_, _, _, _, _, -, heq⟩ |
          ⟨_, _, _, _, -, -, heq⟩ := hmove.event hnew <;> cases heq
      · exact hs.posted q target comment ok hold
    | request q' act =>
      obtain ⟨eff, hmove, rfl⟩ := step_request h
      obtain hnew | hold := List.mem_append.mp he
      · obtain hnone | ⟨_, heq⟩ | ⟨channel, i, copy, made, _, hpc, hmade, heq⟩ := hmove.event hnew
        · cases hnone
        · cases heq
        · cases heq
          obtain ⟨row, hrow, hcontent⟩ := hwf.requests q (i, copy) (by simp [hpc, RequestPc.copies])
          have hbody : copy.body = row.body := congrArg (·.body) hcontent
          rw [copy_comment_stored hmade]
          change isProse copy.body = true
          rw [hbody]
          exact hs.rows i row hrow
      · exact hs.posted q target comment ok hold
  replied q comment ok he := by
    cases a with
    | router r act =>
      obtain ⟨eff, hmove, rfl⟩ := step_router h
      obtain hnew | hold := List.mem_append.mp he
      · obtain ⟨_, _, -, heq, -⟩ | ⟨_, _, _, heq⟩ | ⟨_, _, _, _, _, -, heq⟩ |
          ⟨_, _, _, _, -, -, heq⟩ := hmove.event hnew <;> cases heq
      · exact hs.replied q comment ok hold
    | request q' act =>
      obtain ⟨eff, hmove, rfl⟩ := step_request h
      obtain hnew | hold := List.mem_append.mp he
      · obtain ⟨rfl, outcome, hpc⟩ := hmove.replies hnew
        exact hs.replying q comment outcome hpc
      · exact hs.replied q comment ok hold

theorem Reachable.spoken {ledger : Ledger} {ok : Routing.State → Step → Prop}
    (hledger : ∀ d row, ledger.rows d = some row → isProse row.body = true)
    (h : (reviews cfg ledger).Reachable ok s) : Spoken s :=
  Reachable.invariant (J := fun u => WellFormed cfg u ∧ Gated cfg u)
    (fun _ hu => ⟨Reachable.wellFormed hu, Reachable.gated hu⟩) (Spoken.initial hledger)
    (fun _ _ _ hj _ hstep hs => hs.step hj.1 hj.2 hstep) h

end

/-- The command about a decision, as the notice spells it. -/
def decisionCommand (verb : String) (d : DecisionId) : String :=
  "/autopr " ++ verb ++ " " ++ toString d

section
variable {u : Unicode}

theorem toList_toString (n : Nat) : (toString n).toList = Nat.toDigits 10 n := Nat.toList_repr

theorem isDigit_of_mem {n : Nat} {c : Char} (h : c ∈ Nat.toDigits 10 n) : c.isDigit = true :=
  Nat.isDigit_of_mem_toDigits (by decide) (by decide) h

theorem digit_bounds {c : Char} (h : c.isDigit = true) : 48 ≤ c.toNat ∧ c.toNat ≤ 57 := by
  unfold Char.isDigit at h
  simp only [Bool.and_eq_true, decide_eq_true_eq, ge_iff_le, UInt32.le_iff_toNat_le] at h
  exact h

theorem digit_value (hu : Standard u) {c : Char} (h : c.isDigit = true) :
    u.digit c = some (c.toNat - '0'.toNat) := by
  have hbounds := digit_bounds h
  rw [hu.digit c (by omega)]
  unfold Unicode.ascii
  dsimp only
  rw [h]
  rfl

theorem decimal_toDigits (hu : Standard u) (n : Nat) : decimal u (Nat.toDigits 10 n) = n := by
  have hfold : ∀ cs : List Char, (∀ c ∈ cs, c.isDigit = true) → ∀ acc,
      cs.foldl (fun acc c => 10 * acc + (u.digit c).getD 0) acc = Nat.ofDigitChars 10 cs acc := by
    intro cs
    induction cs with
    | nil => exact fun _ _ => rfl
    | cons c rest ih =>
      intro hcs acc
      obtain ⟨hc, hrest⟩ := List.forall_mem_cons.mp hcs
      rw [List.foldl_cons, ih hrest, Nat.ofDigitChars_cons, digit_value hu hc, Option.getD_some]
  unfold decimal
  rw [hfold _ (fun c hc => isDigit_of_mem hc)]
  exact Nat.ofDigitChars_ten_toDigits

theorem contentLine_single {cs : List Char} (hne : cs ≠ []) (htrim : Trimmed cs)
    (hplain : ∀ c ∈ cs, isLineBreak c = false) :
    contentLine (String.ofList cs) = some (String.ofList cs) := by
  have hlines : ∀ text line : List Char, (∀ c ∈ text, isLineBreak c = false) →
      line.reverse ++ text ≠ [] → linesFrom line text = [String.ofList (line.reverse ++ text)] := by
    intro text
    induction text with
    | nil =>
      intro line _ hline
      rw [List.append_nil] at hline ⊢
      rw [linesFrom, if_neg (by simpa using hline)]
    | cons c rest ih =>
      intro line htext _
      obtain ⟨hc, hrest⟩ := List.forall_mem_cons.mp htext
      rw [linesFrom.eq_def]
      split
      · rename_i heq
        cases heq
      · rename_i heq
        cases heq
        cases hc
      · rename_i c' rest' _ heq
        cases heq
        rw [hc, if_neg Bool.false_ne_true, ih (c :: line) hrest (by simp), List.reverse_cons,
          List.append_assoc, List.singleton_append]
  have hstrip : strip (String.ofList cs) = String.ofList cs := by
    have hnone : ∀ c ∈ ([] : List Char), isSpace c = true := fun c hc => absurd hc List.not_mem_nil
    simpa using strip_of_trimmed htrim hnone
  unfold contentLine splitLines
  rw [String.toList_ofList, hlines cs [] hplain hne, List.reverse_nil, List.nil_append,
    List.map_singleton, hstrip, List.find?_cons_of_pos]
  simpa using hne

theorem digit_plain {n : Nat} {c : Char} (h : c ∈ Nat.toDigits 10 n) :
    isSpace c = false ∧ isLineBreak c = false := by
  have hbounds := digit_bounds (isDigit_of_mem h)
  constructor
  · simp only [isSpace, Bool.or_eq_false_iff, Bool.and_eq_false_iff, decide_eq_false_iff_not]
    omega
  · simp only [isLineBreak, Bool.or_eq_false_iff, Bool.and_eq_false_iff, decide_eq_false_iff_not]
    omega

theorem numberRun_digits (hu : Standard u) (n : Nat) :
    numberRun u (' ' :: Nat.toDigits 10 n) = Nat.toDigits 10 n := by
  have hhash : afterHash (Nat.toDigits 10 n) = Nat.toDigits 10 n := by
    unfold afterHash
    split
    · rename_i heq
      have hmem : '#' ∈ Nat.toDigits 10 n := by
        rw [heq]
        exact List.mem_cons_self
      cases isDigit_of_mem hmem
    · rfl
  unfold numberRun
  rw [List.dropWhile_cons_of_pos rfl,
    dropWhile_of_front fun c hc => (digit_plain (List.mem_of_mem_head? hc)).1, hhash]
  apply List.takeWhile_eq_self_iff.mpr
  intro c hc
  unfold isDigit
  rw [digit_value hu (isDigit_of_mem hc)]
  rfl

theorem toList_decisionCommand (verb : String) (d : DecisionId) :
    (decisionCommand verb d).toList =
      "/autopr".toList ++ (" ".toList ++ (verb.toList ++ (' ' :: Nat.toDigits 10 d))) := by
  unfold decisionCommand
  rw [String.toList_append, String.toList_append, String.toList_append, toList_toString]
  simp

theorem decisionCommand_trimmed (verb : String) (d : DecisionId) :
    Trimmed (decisionCommand verb d).toList := by
  rw [toList_decisionCommand]
  constructor
  · intro c hc
    cases hc
    rfl
  · intro c hc
    rw [List.getLast?_append, List.getLast?_append, List.getLast?_append, List.getLast?_cons,
      List.getLast?_eq_some_getLast Nat.toDigits_ne_nil] at hc
    cases hc
    exact (digit_plain (List.getLast_mem Nat.toDigits_ne_nil)).1

variable {verb : String} {d : DecisionId}

theorem decisionCommand_content (hverb : verb = "approve" ∨ verb = "reject") :
    contentLine (decisionCommand verb d) = some (decisionCommand verb d) := by
  have hlist := toList_decisionCommand verb d
  have hne : (decisionCommand verb d).toList ≠ [] := by
    rw [hlist]
    exact List.cons_ne_nil _ _
  have hplain : ∀ c ∈ (decisionCommand verb d).toList, isLineBreak c = false := by
    have hstart : ∀ c ∈ "/autopr".toList ++ (" ".toList ++ verb.toList), isLineBreak c = false := by
      obtain rfl | rfl := hverb <;> decide
    intro c hc
    rw [hlist, ← List.append_assoc " ".toList, ← List.append_assoc, List.mem_append,
      List.mem_cons] at hc
    obtain hc | rfl | hc := hc
    · exact hstart c hc
    · rfl
    · exact (digit_plain hc).2
  have hsingle := contentLine_single hne (decisionCommand_trimmed verb d) hplain
  rwa [String.ofList_toList] at hsingle

theorem decisionCommand_addressed (hverb : verb = "approve" ∨ verb = "reject") :
    Addressed (decisionCommand verb d) verb (' ' :: Nat.toDigits 10 d) where
  verb_mem := hverb
  split := ⟨"/autopr".toList, " ".toList, verb.toList, toList_decisionCommand verb d, by decide,
    by decide, by decide, by obtain rfl | rfl := hverb <;> decide⟩

/-- The parser reads the verb and some number; it is the id that the command says, if that has no
more digits than it reads. -/
theorem decisionCommand_read (hu : Standard u) (hverb : verb = "approve" ∨ verb = "reject") :
    ∃ n, parseCommand u (.str (decisionCommand verb d)) = .ok (some ⟨verb, some n⟩) ∧
      (n = d ↔ d < 10 ^ 12) := by
  have hrun := numberRun_digits hu d
  have hne : Nat.toDigits 10 d ≠ [] := Nat.toDigits_ne_nil
  have hblank : isWord u ' ' = false := isWord_space hu rfl
  have hread := decimal_take u (Nat.toDigits 10 d)
  rw [decimal_toDigits hu, Nat.length_toDigits_le_iff (by decide) (by decide)] at hread
  refine ⟨decimal u ((Nat.toDigits 10 d).take 12), ?_, ?_⟩
  · rw [parseCommand_str, decisionCommand_content hverb, Option.bind_some,
      parse_addressed hu (decisionCommand_trimmed verb d) (decisionCommand_addressed hverb),
      List.head?_cons, Option.any_some, hblank, if_neg Bool.false_ne_true]
    unfold foundId
    rw [foundRun_number hu (hrun.symm ▸ hne), hrun, if_neg (by simp [hne])]
  · rw [hread, or_iff_left_of_imp]
    rintro rfl
    exact Nat.pow_pos (by decide)

theorem parse_decisionCommand (hu : Standard u) (hverb : verb = "approve" ∨ verb = "reject") :
    parseCommand u (.str (decisionCommand verb d)) = .ok (some ⟨verb, some d⟩) ↔ d < 10 ^ 12 := by
  obtain ⟨n, hread, hshort⟩ := @decisionCommand_read u verb d hu hverb
  rw [hread, ← hshort]
  simp

end

/-- The text shows both commands about the decision, the approval in a block of its own. -/
def Offers (d : DecisionId) (body : String) : Prop :=
  ∃ above between below, body = above ++ ("```\n" ++ decisionCommand "approve" d ++ "\n```") ++
    between ++ ("`" ++ decisionCommand "reject" d ++ "`") ++ below

theorem queuedNotice_offers (u : Unicode) (d : DecisionId) (action : String) (risk : PyVal) :
    Offers d (queuedNotice u d action risk) := by
  refine ⟨"### Action queued for approval\n\n" ++ "`#" ++ toString d ++ "` · **" ++ action ++
    "** · risk `" ++ risk.toStr u ++ "`\n\n" ++
    "This one changes code, so it waits for a human. A maintainer can run:\n\n",
    "\n\n" ++ "`/autopr status` lists what is waiting, ", " declines it.", ?_⟩
  have happrove : "```\n/autopr approve " = "```\n" ++ ("/autopr " ++ ("approve" ++ " ")) := by decide
  have hfence : "\n```\n\n" = "\n```" ++ "\n\n" := by decide
  have hreject : "`/autopr status` lists what is waiting, `/autopr reject " =
      "`/autopr status` lists what is waiting, " ++ ("`" ++ ("/autopr " ++ ("reject" ++ " "))) := by
    decide
  have hend : "` declines it." = "`" ++ " declines it." := by decide
  unfold queuedNotice decisionCommand
  rw [happrove, hfence, hreject, hend]
  simp only [String.append_assoc]

/-- What `post_issue_comment` is given. -/
def said : Routing.Event → Option Comment
  | .posted _ _ comment _ | .notified _ _ comment _ | .replied _ comment _ => some comment
  | _ => none

/-- From stored bodies that are prose, none of the comments that reviews, notices and replies come
to in any run is a command to the program, nor is any answer to a comment that is delivered then,
whatever that comment asks. A notice shows the commands about its decision; each is parsed to it
exactly if the id has at most twelve digits. -/
theorem conversation {cfg : CommandSettings} {ledger : Ledger} {s : Routing.State}
    {ok : Routing.State → Step → Prop} (hu : Standard cfg.unicode)
    (hledger : ∀ d row, ledger.rows d = some row → isProse row.body = true)
    (h : (reviews cfg.toSettings ledger).Reachable ok s) :
    (∀ e ∈ s.events, ∀ comment, said e = some comment →
      parseCommand cfg.unicode (.str comment.body) = .ok none) ∧
    (∀ w db configured payload auth deed comment,
      deed ∈ (final (handleIssueComment cfg w db configured payload) ⟨auth, s.rows, []⟩).deeds →
      deed.comment = some comment → parseCommand cfg.unicode (.str comment.body) = .ok none) ∧
    ∀ r d comment ok, .notified r d comment ok ∈ s.events → Offers d comment.body ∧
      ∀ verb, verb = "approve" ∨ verb = "reject" →
        (parseCommand cfg.unicode (.str (decisionCommand verb d)) = .ok (some ⟨verb, some d⟩) ↔
          d < 10 ^ 12) := by
  have hspoken := Reachable.spoken hledger h
  have hgated := Routing.Reachable.gated h
  refine ⟨?_, ?_, ?_⟩
  · intro e he comment hsaid
    apply parseCommand_prose
    cases e with
    | posted actor target made ok =>
      cases hsaid
      cases actor with
      | router r =>
        obtain ⟨run, -, hroute, hact, -, hbody⟩ := hgated.posted r target comment ok he
        rw [hbody]
        exact route_prose hroute hact
      | request q => exact hspoken.posted q target comment ok he
    | notified r d made ok =>
      cases hsaid
      obtain ⟨row, -, hbody⟩ := hgated.notified r d comment ok he
      rw [hbody]
      exact queuedNotice_prose d row.action row.risk
    | replied q made ok =>
      cases hsaid
      exact hspoken.replied q comment ok he
    | started | requested | set | claimed => cases hsaid
  · intro w db configured payload auth deed comment hdeed hcomment
    have hcivil : Civil ⟨auth, s.rows, []⟩ :=
      ⟨hspoken.rows, fun deed hdeed => absurd hdeed List.not_mem_nil⟩
    exact parseCommand_prose
      ((handleIssueComment_polite _ hcivil).deeds deed hdeed comment hcomment)
  · intro r d comment ok he
    obtain ⟨row, -, hbody⟩ := hgated.notified r d comment ok he
    rw [hbody]
    exact ⟨queuedNotice_offers _ d row.action row.risk, fun verb hverb => parse_decisionCommand hu hverb⟩

theorem conversation_announced :
    parseCommand .ascii (.str (decisionCommand "approve" 0)) = .ok (some ⟨"approve", some 0⟩) ∧
      ∀ e ∈ announcedState.events, ∀ comment, said e = some comment →
        parseCommand .ascii (.str comment.body) = .ok none := by
  have hconversation := @conversation .live .empty announcedState _ ascii_standard
    (fun d row hrow => by cases hrow) announced_reachable
  obtain ⟨r, he⟩ : ∃ r comment, .notified r 0 comment true ∈ announcedState.events :=
    ⟨0, _, List.mem_cons_self⟩
  obtain ⟨comment, he⟩ := he
  exact ⟨((hconversation.2.2 r 0 comment true he).2 "approve" (.inl rfl)).mpr (by decide),
    hconversation.1⟩

end AutoPR.Commands
