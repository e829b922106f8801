import ConnectorKeeper.Proofs.Configurations
import ConnectorKeeper.Proofs.PassHistories
import ConnectorKeeper.Proofs.Targets

/-!
# A pass obeys its histories

The walk along a pass over the wire.  Each question has one lemma: what may be
asked before it was asked, and which history its answer leads to.  The parts of a
pass are put together from these, up to `Record.obeys_pass`.
-/

namespace ConnectorKeeper

open Program (Exchange Obeys)

/-! ## Walking over single questions -/

section Questions

variable {rule : List (Exchange Wire.Reply) → Wire → Prop} {past : List (Exchange Wire.Reply)}

/-- An exchange with a cluster sends one request or none. -/
theorem Connect.obeys_exchange {α : Type}
    {ending : List (Exchange Wire.Reply) → Except ClusterError α → Prop} {host : String}
    {segments : List String} {method : Http.Method} {body : Option Json}
    {judge : Http.Response → Except ClusterError α}
    (hsend : ∀ q, (exchange host segments method body judge).MayAsk (.cluster q) →
      q.method = method → q.body = body → rule past (.cluster q))
    (hunsent : ∀ e, e.isNotFound = false → ending past (.error e))
    (hlost : ∀ q e, q.method = method → e.isNotFound = false →
      ending (past ++ [Wire.ofCluster q none]) (.error e))
    (hanswer : ∀ q response, (exchange host segments method body judge).MayAsk (.cluster q) →
      q.method = method → ending (past ++ [Wire.ofCluster q (some response)]) (judge response)) :
    Obeys rule ending past (exchange host segments method body judge) := by
  obtain ⟨e, he, hcall⟩ | ⟨base, q, lost, -, hmethod, hbody, -, hnot, hcall⟩ :=
    cases_of_exchange host segments method body judge
  · rw [hcall]
    exact hunsent e he
  · rw [hcall] at hsend hanswer ⊢
    refine ⟨hsend q (.here _ _) hmethod hbody, ?_⟩
    intro reply
    cases reply with
    | none => exact hlost q lost hmethod hnot
    | some response => exact hanswer q response (.here _ _) hmethod

/-- A patch of a record sends one request or none. -/
theorem Store.obeys_patch {ending : List (Exchange Wire.Reply) → Except StoreError Unit → Prop}
    {r : Record} {part : String} {body : Json}
    (hsend : ∀ q : Api.Request, q.method = .patch → q.body = some body → rule past (.api q))
    (hunsent : ∀ e, ending past (.error e))
    (hrefused : ∀ q reply e, q.method = .patch → q.body = some body →
      ending (past ++ [Wire.ofApi q reply]) (.error e))
    (hdone : ∀ q reply changed, q.method = .patch → q.body = some body →
      Api.judge Record.decoder reply = .ok changed →
      ending (past ++ [Wire.ofApi q reply]) (.ok ())) :
    Obeys rule ending past (patch r part body) := by
  obtain ⟨e, -, hcall⟩ | ⟨q, -, hmethod, hbody, hcall⟩ := cases_of_patch r part body
  · rw [hcall]
    exact hunsent e
  · rw [hcall]
    refine ⟨hsend q hmethod hbody, ?_⟩
    intro reply
    show ending _ (written (Api.judge Record.decoder reply))
    cases hreply : Api.judge Record.decoder reply with
    | error e => exact hrefused q reply _ hmethod hbody
    | ok changed => exact hdone q reply changed hmethod hbody hreply

end Questions

/-! ## Walking over a pass -/

namespace Record

variable {r : Record} {name : String} {past : List (Exchange Wire.Reply)}

/-- How a pass may end: with success wherever the status was written. -/
def Ends (past : List (Exchange Wire.Reply)) (result : Except PassError Outcome) : Prop :=
  (∃ o, result = .ok o) ∨ ∀ x ∈ past, ¬ x.1.SetsStatus

theorem Open.ends (h : Open past) (result : Except PassError Outcome) : Ends past result :=
  .inr fun x hx hsets => h x hx (.inr hsets)

/-! ### Reading -/

/-- A lookup tells apart a connector that is there from one that is not. -/
theorem obeys_lookup (h : r.Ready past) (hlive : r.deletionRequested = false) :
    Obeys r.MaySend (fun past found => match found with
      | .ok .present => r.Looked name 200 past
      | .ok .absent => r.Looked name 404 past
      | .error _ => Open past) past (Connect.lookup r.spec.host name) := by
  refine Connect.obeys_exchange ?_ ?_ ?_ ?_
  · intro q _ hq _
    exact .ask (.inl h) hlive hq
  · intro e _
    exact h.quiet.open
  · intro q e hq _
    exact (h.quiet.concat_get hq none).open
  · intro q response hsent hq
    by_cases hfound : response.status = 200
    · simp only [if_pos hfound]
      exact .mk h ⟨q, response, rfl, hsent, hfound⟩
    · by_cases habsent : response.status = 404
      · simp only [if_neg hfound, if_pos habsent]
        exact .mk h ⟨q, response, rfl, hsent, habsent⟩
      · simp only [if_neg hfound, if_neg habsent]
        exact (h.quiet.concat_get hq (some response)).open

/-- The configuration is read of a connector that was found. -/
theorem obeys_readConfig (h : r.Looked name 200 past) (hlive : r.deletionRequested = false) :
    Obeys r.MaySend (fun past read => match read with
      | .ok config => r.Read name config past
      | .error _ => Open past) past (Connect.readConfig r.spec.host name) := by
  refine Connect.obeys_exchange ?_ ?_ ?_ ?_
  · intro q _ hq _
    exact .ask (.inr ⟨name, .inl h⟩) hlive hq
  · intro e _
    exact h.quiet.open
  · intro q e hq _
    exact (h.quiet.concat_get hq none).open
  · intro q response hsent hq
    cases hread : Connect.acceptBody "get_config" configDecoder response with
    | error e => exact (h.quiet.concat_get hq (some response)).open
    | ok config =>
      exact .config h ⟨q, response, rfl, hsent, Connect.acceptBody_eq_ok_iff.1 hread⟩

/-- Reading the runtime status changes nothing about the pass, whatever comes back. -/
theorem obeys_readStatus {config : Config} (h : r.Read name config past)
    (hlive : r.deletionRequested = false) :
    Obeys r.MaySend (fun past _ => r.Read name config past) past
      (Connect.readStatus r.spec.host name) := by
  refine Connect.obeys_exchange ?_ ?_ ?_ ?_
  · intro q _ hq _
    exact .ask (.inr ⟨name, .inr ⟨config, h⟩⟩) hlive hq
  · intro e _
    exact h
  · intro q e hq _
    exact h.status hq
  · intro q response _ hq
    exact h.status hq

/-- What observing a connector may come to. -/
def Observed (r : Record) (name : String) (past : List (Exchange Wire.Reply)) :
    Except PassError Observation → Prop
  | .ok seen => (seen = .absent ∧ r.Looked name 404 past) ∨
      ∃ config runtime, seen = ⟨true, some config, runtime⟩ ∧ r.Read name config past
  | .error _ => Open past

/-- A connector is observed by reading alone. -/
theorem obeys_observe (h : r.Ready past) (hlive : r.deletionRequested = false) :
    Obeys r.MaySend (r.Observed name) past
      ((observe r.spec.host name).run Neighbour.overWire) := by
  refine Obeys.run_ask (obeys_lookup h hlive) ?_
  intro past found hfound
  cases found with
  | error e => exact hfound
  | ok presence =>
    cases presence with
    | absent => exact .inl ⟨rfl, hfound⟩
    | present =>
      refine Obeys.run_ask (obeys_readConfig hfound hlive) ?_
      intro past read hread
      cases read with
      | error e => exact hread
      | ok config =>
        refine Obeys.run_ask (obeys_readStatus hread hlive) ?_
        intro past runtime hread
        exact .inr ⟨config, _, rfl, hread⟩

/-! ### Writing -/

/-- A response is accepted by its status, and only 404 says that nothing was found. -/
theorem accept_cases (operation : String) (statuses : List Nat) (response : Http.Response) :
    (response.status ∈ statuses ∧ Connect.accept operation statuses response = .ok ()) ∨
      ∃ e, Connect.accept operation statuses response = .error e ∧
        (e.isNotFound = true ↔ response.status = 404) := by
  unfold Connect.accept
  split
  · next h => exact .inl ⟨List.contains_iff_mem.1 h, rfl⟩
  · exact .inr ⟨_, rfl, beq_iff_eq⟩

/-- A change that settles the connector if it is accepted. -/
theorem obeys_change {host operation : String} {segments : List String} {method : Http.Method}
    {body : Option Json} {statuses : List Nat} (hquiet : Quiet past)
    (hsend : ∀ q, q.method = method → q.body = body → r.MaySend past (.cluster q))
    (hdone : ∀ x, Accepted method statuses x → r.Settled name (past ++ [x])) :
    Obeys r.MaySend (fun past changed => match changed with
      | .ok () => r.Settled name past
      | .error _ => Open past) past
      (Connect.exchange host segments method body (Connect.accept operation statuses)) := by
  refine Connect.obeys_exchange ?_ ?_ ?_ ?_
  · intro q _ hq hbody
    exact hsend q hq hbody
  · intro e _
    exact hquiet.open
  · intro q e _ _
    exact hquiet.open.concat (Wire.not_closing_cluster q)
  · intro q response _ hq
    obtain ⟨hstatus, hok⟩ | ⟨e, herror, -⟩ := accept_cases operation statuses response
    · rw [hok]
      exact hdone _ ⟨q, response, rfl, hq, hstatus⟩
    · rw [herror]
      exact hquiet.open.concat (Wire.not_closing_cluster q)

/-- A connector that was not found may be created, which settles it. -/
theorem obeys_create (h : r.Looked name 404 past) (hlive : r.deletionRequested = false)
    (hname : r.connectorName = some name) :
    Obeys r.MaySend (fun past created => match created with
      | .ok () => r.Settled name past
      | .error _ => Open past) past (Connect.create r.spec.host r.spec.config) := by
  refine obeys_change h.quiet ?_ ?_
  · intro q hq hbody
    exact .create h hlive hname hq hbody
  · intro x hx
    exact .created h hx

/-- A configuration that differs may be replaced, which settles it. -/
theorem obeys_update {config : Config} (h : r.Read name config past)
    (hlive : r.deletionRequested = false) (hname : r.connectorName = some name)
    (hconfig : config ≠ r.spec.config) :
    Obeys r.MaySend (fun past updated => match updated with
      | .ok () => r.Settled name past
      | .error _ => Open past) past (Connect.update r.spec.host name r.spec.config) := by
  refine obeys_change h.quiet ?_ ?_
  · intro q hq hbody
    exact .update h hlive hname hconfig hq hbody
  · intro x hx
    exact .updated h hx

/-- The status may be set once the connector is settled. -/
theorem obeys_patchStatus (h : r.Settled name past) (hlive : r.deletionRequested = false)
    (hname : r.connectorName = some name) (status : Status) :
    Obeys r.MaySend (fun _ _ => True) past (Store.patchStatus r status) := by
  refine Store.obeys_patch ?_ ?_ ?_ ?_
  · intro q hq hbody
    obtain ⟨hmetadata, hstatus⟩ := Store.member?_statusPatch status
    refine .report h hlive hname ⟨hq, _, hbody, hstatus⟩ ?_
    rintro ⟨l, ⟨-, patch, hpatch, hl⟩, -⟩
    obtain rfl := Option.some.inj (hbody.symm.trans hpatch)
    rw [hmetadata] at hl
    cases hl
  · intro e
    trivial
  · intro q reply e _ _
    trivial
  · intro q reply changed _ _ _
    trivial

/-- The report of a connector that is as it should be comes last. -/
theorem obeys_finish (h : r.Settled name past) (hlive : r.deletionRequested = false)
    (hname : r.connectorName = some name) (resync : Duration) (action : Action) (phase : Phase)
    (reason message : String) :
    Obeys r.MaySend Ends past
      ((finish resync r action phase reason message).run Neighbour.overWire) := by
  refine Program.obeys_run_bind_iff.2 ⟨.clock h, ?_⟩
  intro now
  show Obeys r.MaySend _ _ (Program.run Neighbour.overWire (ite _ _ _))
  split
  · exact .inl ⟨_, rfl⟩
  · refine Obeys.run_ask (obeys_patchStatus (h.clock now) hlive hname _) ?_
    intro past written _
    cases written with
    | error e => exact .inl ⟨_, rfl⟩
    | ok _ => exact .inl ⟨_, rfl⟩

/-- What follows from an observation is one change at most, and a report. -/
theorem obeys_converge {seen : Observation} (h : r.Observed name past (.ok seen))
    (hlive : r.deletionRequested = false) (hname : r.connectorName = some name)
    (resync : Duration) :
    Obeys r.MaySend Ends past ((converge resync r name seen).run Neighbour.overWire) := by
  obtain ⟨rfl, hlooked⟩ | ⟨config, runtime, rfl, hread⟩ := h
  · refine Obeys.run_ask (obeys_create hlooked hlive hname) ?_
    intro past created hcreated
    cases created with
    | error e => exact Open.ends hcreated _
    | ok _ => exact obeys_finish hcreated hlive hname ..
  · simp only [converge, Action.choose_present]
    by_cases hsame : r.spec.config = config
    · subst hsame
      rw [if_pos rfl]
      exact obeys_finish (.same hread) hlive hname ..
    · rw [if_neg hsame]
      refine Obeys.run_ask (obeys_update hread hlive hname (Ne.symm hsame)) ?_
      intro past updated hupdated
      cases updated with
      | error e => exact Open.ends hupdated _
      | ok _ => exact obeys_finish hupdated hlive hname ..

theorem obeys_sync (h : r.Ready past) (hlive : r.deletionRequested = false) (resync : Duration) :
    Obeys r.MaySend Ends past ((sync resync r).run Neighbour.overWire) := by
  unfold sync
  split
  · exact h.quiet.open.ends _
  · next name hname =>
    refine Obeys.run_bind (obeys_observe h hlive) ?_
    intro past result hobserved
    cases result with
    | error e => exact Open.ends hobserved _
    | ok seen => exact obeys_converge hobserved hlive hname resync

/-! ### The finalizer -/

/-- A patch of the finalizers sets these and no status. -/
theorem finalizersPatch_sets {l : List String} {q : Api.Request} (hq : q.method = .patch)
    (hbody : q.body = some (Store.finalizersPatch r l)) :
    (Wire.api q).SetsFinalizers l ∧ ¬ (Wire.api q).SetsStatus := by
  obtain ⟨hmetadata, hnone⟩ := Store.member?_finalizersPatch r l
  refine ⟨⟨hq, _, hbody, hmetadata⟩, ?_⟩
  rintro ⟨-, patch, hpatch, hstatus⟩
  obtain rfl := Option.some.inj (hbody.symm.trans hpatch)
  rw [hnone] at hstatus
  cases hstatus

/-- A record without our finalizer is ready once that is added. -/
theorem obeys_addFinalizer (hlive : r.deletionRequested = false)
    (hmissing : r.finalizerPresent = false) :
    Obeys r.MaySend (fun past added => match added with
      | .ok () => r.Ready past
      | .error _ => Open past) [] (Store.addFinalizer r) := by
  have hadds : ∀ q : Api.Request, q.method = .patch →
      q.body = some (Store.finalizersPatch r (r.finalizers ++ [finalizer])) →
      (Wire.api q).AddsFinalizer ∧ ¬ (Wire.api q).SetsStatus := by
    intro q hq hbody
    obtain ⟨hsets, hkeep⟩ := finalizersPatch_sets hq hbody
    exact ⟨⟨_, hsets, by simp⟩, hkeep⟩
  unfold Store.addFinalizer
  split
  · exact List.forall_mem_nil _
  · rw [hmissing, if_neg Bool.false_ne_true]
    refine Store.obeys_patch ?_ ?_ ?_ ?_
    · intro q hq hbody
      exact .adopt hlive (hadds q hq hbody).1 (hadds q hq hbody).2
    · intro e
      exact List.forall_mem_nil _
    · intro q reply e hq hbody
      obtain ⟨hadds, hkeep⟩ := hadds q hq hbody
      exact List.forall_mem_singleton.2 (hadds.not_closing hkeep)
    · intro q reply changed hq hbody hreply
      exact .adopted (hadds q hq hbody).1 (hadds q hq hbody).2 hreply

theorem obeys_adopt (hlive : r.deletionRequested = false) (hmissing : r.finalizerPresent = false)
    (resync : Duration) :
    Obeys r.MaySend Ends [] ((adopt resync r).run Neighbour.overWire) := by
  unfold adopt
  split
  · exact .inr (List.forall_mem_nil _)
  · simp only [Finalizer.ensure, hmissing, Bool.false_eq_true, if_false]
    refine Obeys.run_ask (obeys_addFinalizer hlive hmissing) ?_
    intro past added hadded
    cases added with
    | error e => exact Open.ends hadded _
    | ok _ => exact obeys_sync hadded hlive resync

/-- The connector of a record was deleted, or is not there. -/
def Deleted (past : List (Exchange Wire.Reply)) : Prop :=
  ∃ x, past = [x] ∧ Accepted .delete [200, 204, 404] x

/-- A connector that is deleted or not found is known to be gone. -/
theorem obeys_delete (hdeleting : r.deletionRequested = true) (hpresent : r.finalizerPresent = true)
    (hname : r.connectorName = some name) :
    Obeys r.MaySend (fun past deleted => match deleted with
      | .ok () => Deleted past
      | .error e => if e.isNotFound then Deleted past else Open past) []
      (Connect.delete r.spec.host name) := by
  refine Connect.obeys_exchange ?_ ?_ ?_ ?_
  · intro q _ hq _
    exact .delete hdeleting hpresent (by rw [hname]; rfl) hq
  · intro e he
    simp only [he, Bool.false_eq_true, if_false]
    exact List.forall_mem_nil _
  · intro q e _ he
    simp only [he, Bool.false_eq_true, if_false]
    exact List.forall_mem_singleton.2 (Wire.not_closing_cluster q)
  · intro q response _ hq
    obtain ⟨hstatus, hok⟩ | ⟨e, herror, hnotFound⟩ := accept_cases "delete" [200, 204] response
    · rw [hok]
      refine ⟨_, rfl, q, response, rfl, hq, ?_⟩
      simp only [List.mem_cons, List.not_mem_nil, or_false] at hstatus ⊢
      omega
    · rw [herror]
      dsimp only
      split
      · next he => exact ⟨_, rfl, q, response, rfl, hq, by simp [hnotFound.1 he]⟩
      · exact List.forall_mem_singleton.2 (Wire.not_closing_cluster q)

/-- Our finalizer is removed by one patch, which leaves the status. -/
theorem obeys_removeFinalizer (hopen : Open past)
    (hsend : ∀ q : Api.Request, (Wire.api q).RemovesFinalizer → ¬ (Wire.api q).SetsStatus →
      r.MaySend past (.api q)) :
    Obeys r.MaySend (fun past _ => ∀ x ∈ past, ¬ x.1.SetsStatus) past
      (Store.removeFinalizer r) := by
  have hremoves : finalizer ∉ r.finalizers.filter (· ≠ finalizer) := by simp
  have hpast : ∀ x ∈ past, ¬ x.1.SetsStatus := fun x hx hsets => hopen x hx (.inr hsets)
  have hlast : ∀ (q : Api.Request) (reply : Api.Reply), q.method = .patch →
      q.body = some (Store.finalizersPatch r (r.finalizers.filter (· ≠ finalizer))) →
      ∀ x ∈ past ++ [Wire.ofApi q reply], ¬ x.1.SetsStatus := by
    intro q reply hq hbody
    exact List.forall_mem_append.2
      ⟨hpast, List.forall_mem_singleton.2 (finalizersPatch_sets hq hbody).2⟩
  refine Program.obeys_bind_iff.2 (Store.obeys_patch ?_ ?_ ?_ ?_)
  · intro q hq hbody
    obtain ⟨hsets, hkeep⟩ := finalizersPatch_sets hq hbody
    exact hsend q ⟨_, hsets, hremoves⟩ hkeep
  · intro e
    exact hpast
  · intro q reply e hq hbody
    exact hlast q reply hq hbody
  · intro q reply changed hq hbody _
    exact hlast q reply hq hbody

/-- A record is let go once its connector is known to be gone, or never had a name. -/
theorem obeys_letGo (hdeleting : r.deletionRequested = true) (hpresent : r.finalizerPresent = true)
    (hpast : Deleted past ∨ r.connectorName = none ∧ past = []) (known : Cleanup) :
    Obeys r.MaySend Ends past ((letGo r known).run Neighbour.overWire) := by
  simp only [letGo, Finalizer.release, hdeleting, hpresent, Bool.not_true, Bool.false_eq_true,
    if_false]
  refine Obeys.run_ask (obeys_removeFinalizer ?_ ?_) ?_
  · obtain ⟨x, rfl, hx⟩ | ⟨-, rfl⟩ := hpast
    · exact List.forall_mem_singleton.2 hx.not_closing
    · exact List.forall_mem_nil _
  · intro q hq hkeep
    obtain ⟨x, rfl, hx⟩ | ⟨hname, rfl⟩ := hpast
    · exact .release hdeleting hpresent hx hq hkeep
    · exact .nameless hdeleting hpresent hname hq hkeep
  · intro past removed hremoved
    cases removed with
    | error e => exact .inr hremoved
    | ok _ => exact .inl ⟨_, rfl⟩

/-- A cleanup deletes before it lets go. -/
theorem obeys_cleanup (hdeleting : r.deletionRequested = true) :
    Obeys r.MaySend Ends [] ((cleanup r).run Neighbour.overWire) := by
  unfold cleanup
  by_cases hpresent : r.finalizerPresent = true
  · rw [if_pos hpresent]
    split
    · next hname => exact obeys_letGo hdeleting hpresent (.inr ⟨hname, rfl⟩) _
    · next name hname =>
      refine Obeys.run_ask (obeys_delete hdeleting hpresent hname) ?_
      intro past deleted hdeleted
      cases deleted with
      | ok _ => exact obeys_letGo hdeleting hpresent (.inl hdeleted) _
      | error e =>
        dsimp only at hdeleted ⊢
        by_cases he : e.isNotFound = true
        · rw [if_pos he] at hdeleted ⊢
          exact obeys_letGo hdeleting hpresent (.inl hdeleted) _
        · rw [if_neg he] at hdeleted ⊢
          exact Open.ends hdeleted _
  · rw [if_neg hpresent]
    exact .inl ⟨_, rfl⟩

/-- A pass asks only what it may. -/
theorem obeys_pass (resync : Duration) (r : Record) :
    Obeys r.MaySend Ends [] (pass resync r).overWire := by
  unfold pass lifecycle Work.overWire
  cases hdeleting : r.deletionRequested with
  | true => exact obeys_cleanup hdeleting
  | false =>
    cases hpresent : r.finalizerPresent with
    | true => exact obeys_sync (.synced hpresent) hdeleting resync
    | false => exact obeys_adopt hdeleting hpresent resync

end Record

end ConnectorKeeper
