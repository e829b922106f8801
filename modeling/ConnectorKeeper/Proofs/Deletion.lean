import ConnectorKeeper.Proofs.FinalizerUpdates
import ConnectorKeeper.Proofs.PassWalk

/-!
# Deletion

How a record that is being deleted is let go.  The clusters delete what they are told
to and say that they do not know the rest.  The API server applies every patch, and
answers 404 where the record is gone.  A record that has no finalizer left may be
removed at once or at any later time.

One pass is then enough: the connector is gone, and our finalizer is off the record.
Passes that come again, over the record as it is or over the old one after it is gone,
succeed and change nothing, however many there are (`Remains.pass_lets_go`).

The store is followed on the wire, so that it can be told which answer it had.  The
clusters are asked in terms of connectors; on the wire this is one request each
(`Work.trace_of_contacts`).
-/

namespace ConnectorKeeper

open Program (Carries Ensures Exchange Exchanged carries_append_iff carries_cons_iff
  carries_nil_iff trace_ask_iff trace_bind_iff trace_done_iff)
open Relation (ReflTransGen)

/-! ## Between questions and the wire -/

/-- A question about connectors, or one on the wire. -/
inductive Contact where
  /-- A cluster is asked about a connector. -/
  | cluster (n : Neighbour)
  /-- Something is asked on the wire. -/
  | wire (q : Wire)

namespace Contact

/-- The answers to a question. -/
def Reply : Contact → Type
  | .cluster n => n.Reply
  | .wire q => q.Reply

/-- A question answered by exchanges on the wire. -/
def overWire : (c : Contact) → Talk c.Reply
  | .cluster n => n.overWire
  | .wire q => Program.question q

/-- A question about a connector and what came of it. -/
def asked (n : Neighbour) (reply : n.Reply) : Exchange Reply := ⟨.cluster n, reply⟩

/-- A request to the API server and what came of it. -/
def ofApi (q : Api.Request) (reply : Api.Reply) : Exchange Reply := ⟨.wire (.api q), reply⟩

end Contact

/-- What the store does, on the wire. -/
def Talk.contact {α : Type} (t : Talk α) : Program Contact Contact.Reply α :=
  t.run fun q => Program.question (Contact.wire q)

/-- A question of a pass; only the store asks on the wire. -/
def Neighbour.contact : (n : Neighbour) → Program Contact Contact.Reply n.Reply
  | .addFinalizer r => (Store.addFinalizer r).contact
  | .removeFinalizer r => (Store.removeFinalizer r).contact
  | .patchStatus r st => (Store.patchStatus r st).contact
  | .clock => Program.question (Contact.wire .clock)
  | n => Program.question (Contact.cluster n)

/-- The same computation, in contact with clusters and the API server. -/
def Work.contact {α : Type} (p : Work α) : Program Contact Contact.Reply α :=
  p.run Neighbour.contact

section Lower

variable {α : Type} {w : List (Exchange Contact.Reply)} {u : List (Exchange Wire.Reply)}

theorem Program.trace_question_iff {Ask : Type} {Reply : Ask → Type} {q : Ask} {a : Reply q}
    {w : List (Exchange Reply)} : (Program.question q).Trace w a ↔ w = [⟨q, a⟩] := by
  constructor
  · intro h
    obtain ⟨reply, w', rfl, hend⟩ := trace_ask_iff.1 h
    obtain ⟨rfl, rfl⟩ := trace_done_iff.1 hend
    rfl
  · rintro rfl
    exact .ask a (.done a)

/-- A talk is carried by the requests that its contacts make. -/
theorem Talk.trace_of_contact {t : Talk α} {a : α} (h : t.contact.Trace w a)
    (hu : Carries Contact.overWire w u) : t.Trace u a := by
  induction t generalizing w u with
  | done b =>
    obtain ⟨rfl, rfl⟩ := trace_done_iff.1 h
    obtain rfl := carries_nil_iff.1 hu
    exact .done _
  | ask q next ih =>
    obtain ⟨reply, w', rfl, hrest⟩ := trace_ask_iff.1 h
    obtain ⟨u₁, u₂, hq, hu₂, rfl⟩ := carries_cons_iff.1 hu
    obtain rfl := Program.trace_question_iff.1 hq
    exact trace_ask_iff.2 ⟨reply, u₂, rfl, ih reply hrest hu₂⟩

theorem Contact.trace_of_question {c : Contact} {a : c.Reply} (h : (Program.question c).Trace w a)
    (hu : Carries overWire w u) : c.overWire.Trace u a := by
  obtain rfl := Program.trace_question_iff.1 h
  obtain ⟨u₁, u₂, hc, hu₂, rfl⟩ := carries_cons_iff.1 hu
  obtain rfl := carries_nil_iff.1 hu₂
  rw [List.append_nil]
  exact hc

/-- So is the answer to a question. -/
theorem Neighbour.trace_of_contact {n : Neighbour} {a : n.Reply} (h : n.contact.Trace w a)
    (hu : Carries Contact.overWire w u) : n.overWire.Trace u a := by
  cases n with
  | addFinalizer | removeFinalizer | patchStatus => exact Talk.trace_of_contact h hu
  | clock => exact Contact.trace_of_question (c := .wire .clock) h hu
  | lookup | readConfig | readStatus | create | update | delete =>
    exact Contact.trace_of_question (c := .cluster _) h hu

/-- What is exchanged on the wire is what the pass exchanges there. -/
theorem Work.trace_of_contacts {p : Work α} {a : α} (h : p.contact.Trace w a)
    (hu : Carries Contact.overWire w u) : p.overWire.Trace u a := by
  induction p generalizing w u with
  | done b =>
    obtain ⟨rfl, rfl⟩ := trace_done_iff.1 h
    obtain rfl := carries_nil_iff.1 hu
    exact .done _
  | ask n next ih =>
    obtain ⟨reply, w₁, w₂, hn, hrest, rfl⟩ := trace_bind_iff.1 h
    obtain ⟨u₁, u₂, hu₁, hu₂, rfl⟩ := carries_append_iff.1 hu
    exact trace_bind_iff.2
      ⟨reply, u₁, u₂, Neighbour.trace_of_contact hn hu₁, ih reply hrest hu₂, rfl⟩

end Lower

/-! ## Requests of a deletion -/

/-- That a connector was not found is what its cluster said. -/
theorem Connect.not_found_of_trace {host name : String} {e : ClusterError}
    {u : List (Exchange Wire.Reply)} (h : (delete host name).Trace u (.error e))
    (he : e.isNotFound = true) : ∃ q response, u = [Wire.ofCluster q (some response)] ∧
      q.method = .delete ∧ response.status = 404 := by
  have hobeys : Program.Obeys (fun _ _ => True) (fun past result =>
      ∀ e, result = .error e → e.isNotFound = true → ∃ q response,
        past = [Wire.ofCluster q (some response)] ∧ q.method = .delete ∧ response.status = 404)
      [] (delete host name) := by
    refine obeys_exchange ?_ ?_ ?_ ?_
    · intros
      trivial
    · rintro _ hknown e ⟨⟩ he
      cases hknown.symm.trans he
    · rintro q _ _ hknown e ⟨⟩ he
      cases hknown.symm.trans he
    · intro q response _ hmethod e herror he
      obtain ⟨-, hok⟩ | ⟨e', herror', hstatus⟩ :=
        Record.accept_cases "delete" [200, 204] response
      · cases hok.symm.trans herror
      · cases herror'.symm.trans herror
        exact ⟨q, response, rfl, hmethod, hstatus.1 he⟩
  exact hobeys.ending_of_trace h e rfl he

/-! ## What a record that goes meets -/

/-- A record that is being deleted, and that is held by our finalizer. -/
structure Record.Leaving (r : Record) (name : String) : Prop where
  /-- Its removal was asked for. -/
  deleting : r.deletionRequested = true
  /-- Our finalizer is on it. -/
  present : r.finalizerPresent = true
  /-- It can be written. -/
  addressable : r.Addressable
  /-- It names its connector. -/
  named : r.connectorName = some name

/-- A record that may be gone, and the connectors of all clusters. -/
structure Remains where
  /-- The record as it is stored, none if it is gone. -/
  stored : Option StoredRecord
  /-- The configurations of the connectors, by host and name. -/
  connectors : String × String → Option Config

/-- That the record is gone. -/
def Api.Reply.TellsGone (reply : Api.Reply) : Prop :=
  ∃ body text, reply = .answer 404 body ∧ body.strict = some text ∧
    (Api.describeError 404 text).code = 404

theorem Api.Reply.exists_tellsGone : ∃ reply : Api.Reply, reply.TellsGone :=
  ⟨.answer 404 (.ofString ""), _, "", rfl, by decide +kernel, by decide +kernel⟩

/-- An answer that tells that the record is gone is read as an error with that code. -/
theorem Api.Reply.TellsGone.judge {reply : Api.Reply} (h : reply.TellsGone) :
    ∃ e, Api.judge Record.decoder reply = .error (.api e) ∧ e.code = 404 := by
  obtain ⟨body, text, rfl, htext, hcode⟩ := h
  refine ⟨_, ?_, hcode⟩
  simp only [Api.judge, htext]
  rfl

/-- What becomes of a document that is written: it may go if it should and nothing holds it. -/
inductive StoredRecord.Stays (doc : StoredRecord) : Option StoredRecord → Prop
  | kept : Stays doc (some doc)
  | removed (hdeleting : doc.record.deletionRequested = true) (hfree : doc.record.finalizers = []) :
      Stays doc none

namespace Remains

/-- What is answered, and what is left then.  Nothing else is answered than the deletion of
a connector and a patch, which is one of the record if there is a record. -/
def answers (s : Remains) : (c : Contact) → c.Reply → Remains → Prop
  | .cluster (.delete host name), reply, s' =>
      match s.connectors (host, name) with
      | some _ => reply = .ok () ∧
          s' = { s with connectors := Function.update s.connectors (host, name) none }
      | none => s' = s ∧ ∃ e : ClusterError, reply = .error e ∧ e.isNotFound = true
  | .wire (.api q), reply, s' =>
      match s.stored with
      | some doc => ∃ patch doc' stored, q.method = .patch ∧ Store.Names doc.record q.path ∧
          q.body = some patch ∧ doc.Applies patch doc' ∧ doc'.Stays stored ∧
            s' = { s with stored } ∧ ∃ r, Api.judge Record.decoder reply = .ok r
      | none => s' = s ∧ q.method = .patch ∧ reply.TellsGone
  | _, _, _ => False

/-- The record has gone. -/
def vanish (s : Remains) : Remains := { s with stored := none }

variable {s s' : Remains} {r : Record} {name : String}

/-! ## The pass that lets a record go -/

/-- A connector is deleted, or is not there. -/
inductive Clears (s : Remains) (host name : String) : Exchange Contact.Reply → Remains → Prop
  | deleted (h : s.connectors (host, name) ≠ none) :
      Clears s host name (Contact.asked (.delete host name) (.ok ()))
      { s with connectors := Function.update s.connectors (host, name) none }
  | absent {e : ClusterError} (h : s.connectors (host, name) = none) (he : e.isNotFound = true) :
      Clears s host name (Contact.asked (.delete host name) (.error e)) s

/-- Our finalizer is taken off a record, or the record is gone. -/
inductive Unguards (s : Remains) (r : Record) : Exchange Contact.Reply → Remains → Prop
  | written {q : Api.Request} {reply : Api.Reply} {doc doc' : StoredRecord}
      {stored : Option StoredRecord} (h : s.stored = some doc)
      (hrevised : doc.record.Revised doc'.record (r.finalizers.filter (· ≠ finalizer))
        doc.record.status)
      (hstays : doc'.Stays stored) : Unguards s r (Contact.ofApi q reply) { s with stored }
  | gone {q : Api.Request} {body : Text.ByteText} (h : s.stored = none) (hq : q.method = .patch) :
      Unguards s r (Contact.ofApi q (.answer 404 body)) s

/-- What is still stored is at the address of the record. -/
def Keeps (s : Remains) (r : Record) : Prop :=
  ∀ doc, s.stored = some doc → Store.address doc.record = Store.address r

/-- The finalizer is taken off by one request, which succeeds. -/
theorem ensures_removeFinalizer (haddressable : r.Addressable) (hkeeps : s.Keeps r) :
    (Store.removeFinalizer r).contact.Ensures answers s fun w s' result =>
      result = .ok () ∧ ∃ x, w = [x] ∧ s.Unguards r x s' := by
  obtain ⟨q, ⟨hmethod, hbody, hcall⟩, hnames⟩ :=
    Store.Change.remove.exists_sends haddressable nofun
  have hremove : Store.removeFinalizer r = _ := hcall
  rw [hremove]
  cases hstored : s.stored with
  | none =>
    have hanswer : ∀ (reply : Api.Reply) s', answers s (.wire (.api q)) reply s' ↔
        s' = s ∧ q.method = .patch ∧ reply.TellsGone := by
      intro reply s'
      simp only [answers, hstored]
    constructor
    · obtain ⟨reply, hgone⟩ := Api.Reply.exists_tellsGone
      exact ⟨reply, s, (hanswer reply s).2 ⟨rfl, hmethod, hgone⟩⟩
    · intro reply s' hreply
      obtain ⟨rfl, -, hgone⟩ := (hanswer reply s').1 hreply
      obtain ⟨e, hjudge, hcode⟩ := hgone.judge
      obtain ⟨body, text, rfl, -⟩ := hgone
      refine ⟨?_, _, rfl, .gone hstored hmethod⟩
      show Store.Change.remove.conclude (Store.written (Api.judge _ _)) = _
      rw [hjudge]
      simp [Store.written, Store.Change.conclude, Store.StoreError.isGone, hcode]
  | some doc =>
    have hanswer : ∀ (reply : Api.Reply) s', answers s (.wire (.api q)) reply s' ↔
        ∃ patch doc' stored, q.method = .patch ∧ Store.Names doc.record q.path ∧
          q.body = some patch ∧ doc.Applies patch doc' ∧ doc'.Stays stored ∧
            s' = { s with stored } ∧ ∃ r, Api.judge Record.decoder reply = .ok r := by
      intro reply s'
      simp only [answers, hstored]
    constructor
    · obtain ⟨doc', happlies⟩ :=
        doc.exists_applies_finalizers r (r.finalizers.filter (· ≠ finalizer))
      obtain ⟨reply, hok⟩ := World.exists_accepting
      exact ⟨reply, _, (hanswer reply _).2
        ⟨_, doc', _, hmethod, (Store.names_congr (hkeeps doc hstored)).2 hnames, hbody, happlies,
          .kept, rfl, hok⟩⟩
    · intro reply s' hreply
      obtain ⟨patch, doc', stored, -, -, hpatch, happlies, hstays, rfl, changed, hok⟩ :=
        (hanswer reply s').1 hreply
      obtain rfl := Option.some.inj (hbody.symm.trans hpatch)
      refine ⟨?_, _, rfl, .written hstored happlies.of_finalizers hstays⟩
      show Store.Change.remove.conclude (Store.written (Api.judge _ _)) = _
      rw [hok]
      rfl

/-- Letting go succeeds with that one request. -/
theorem ensures_letGo (h : r.Leaving name) (hkeeps : s.Keeps r) (known : Cleanup) :
    (letGo r known).contact.Ensures answers s fun w s' result =>
      result = .ok ⟨.delete, none⟩ ∧ ∃ x, w = [x] ∧ s.Unguards r x s' := by
  simp only [letGo, Finalizer.release, h.deleting, h.present, Bool.not_true, Bool.false_eq_true,
    if_false]
  refine Program.ensures_bind_iff.2 ((ensures_removeFinalizer h.addressable hkeeps).mono ?_)
  rintro w s' result ⟨rfl, x, rfl, hx⟩
  exact ⟨rfl, x, rfl, hx⟩

/-- Whatever is left of the connector and of the record, two requests do. -/
theorem ensures_pass_of_leaving (h : r.Leaving name) (hkeeps : s.Keeps r)
    (resync : Duration) :
    (pass resync r).contact.Ensures answers s fun w s' result => result = .ok ⟨.delete, none⟩ ∧
      ∃ x y s₁, w = [x, y] ∧ s.Clears r.spec.host name x s₁ ∧ s₁.Unguards r y s' := by
  unfold pass Record.lifecycle cleanup
  rw [h.deleting, h.present, h.named, if_pos rfl, if_pos rfl]
  cases hconnector : s.connectors (r.spec.host, name) with
  | none =>
    have hanswer : ∀ (reply : Except ClusterError Unit) s',
        answers s (.cluster (.delete r.spec.host name)) reply s' ↔
          s' = s ∧ ∃ e, reply = .error e ∧ e.isNotFound = true := by
      intro reply s'
      simp only [answers, hconnector]
      exact Iff.rfl
    constructor
    · exact ⟨.error (.refused "delete" 404 ""), s, (hanswer _ s).2 ⟨rfl, _, rfl, rfl⟩⟩
    · intro reply s' hreply
      obtain ⟨rfl, e, rfl, he⟩ := (hanswer reply s').1 hreply
      show (Work.contact (ite _ _ _)).Ensures _ _ _
      rw [if_pos he]
      refine (ensures_letGo h hkeeps _).mono ?_
      rintro w s'' result ⟨rfl, y, rfl, hy⟩
      exact ⟨rfl, _, y, s', rfl, .absent hconnector he, hy⟩
  | some config =>
    have hanswer : ∀ (reply : Except ClusterError Unit) s',
        answers s (.cluster (.delete r.spec.host name)) reply s' ↔ reply = .ok () ∧
          s' = { s with
            connectors := Function.update s.connectors (r.spec.host, name) none } := by
      intro reply s'
      simp only [answers, hconnector]
      exact Iff.rfl
    constructor
    · exact ⟨.ok (), _, (hanswer _ _).2 ⟨rfl, rfl⟩⟩
    · intro reply s' hreply
      obtain ⟨rfl, rfl⟩ := (hanswer reply s').1 hreply
      have hkeeps' : Keeps { s with
          connectors := Function.update s.connectors (r.spec.host, name) none } r := hkeeps
      refine (ensures_letGo h hkeeps' _).mono ?_
      rintro w s'' result ⟨rfl, y, rfl, hy⟩
      exact ⟨rfl, _, y, _, rfl, .deleted (by simp [hconnector]), hy⟩

/-- The connector of a record is gone and no other touched; the record is as it was without
our finalizer, or gone too. -/
structure LetGo (s : Remains) (r : Record) (name : String) (s' : Remains) : Prop where
  /-- One connector is gone. -/
  connectors : s'.connectors = Function.update s.connectors (r.spec.host, name) none
  /-- What is still stored is the old record without our finalizer. -/
  stored : ∀ doc, s'.stored = some doc →
    r.Revised doc.record (r.finalizers.filter (· ≠ finalizer)) r.status

/-- A deletion clears the place of the connector and leaves the rest. -/
theorem Clears.connectors {x : Exchange Contact.Reply} {host : String}
    (h : s.Clears host name x s') :
    s'.connectors = Function.update s.connectors (host, name) none ∧ s'.stored = s.stored := by
  cases h with
  | deleted => exact ⟨rfl, rfl⟩
  | absent hnone _ => exact ⟨(Function.update_eq_self_iff.2 hnone.symm).symm, rfl⟩

/-- A deletion and a release let the record go. -/
theorem Clears.letGo {s₁ : Remains} {x y : Exchange Contact.Reply}
    (hcurrent : ∀ doc, s.stored = some doc → doc.record = r)
    (hx : s.Clears r.spec.host name x s₁) (hy : s₁.Unguards r y s') : s.LetGo r name s' := by
  obtain ⟨hconnectors, hstored⟩ := hx.connectors
  cases hy with
  | gone hnone => exact ⟨hconnectors, fun doc hdoc => nomatch hnone.symm.trans hdoc⟩
  | @written _ _ doc doc' stored hdoc hrevised hstays =>
    obtain rfl := hcurrent doc (hstored ▸ hdoc)
    refine ⟨hconnectors, ?_⟩
    intro _ hkept
    cases hstays with
    | kept =>
      cases hkept
      exact hrevised
    | removed => cases hkept

/-! ## Passes that come again -/

/-- The connector is gone, and nothing is left to do for the record. -/
structure Spent (s : Remains) (r : Record) (name : String) : Prop where
  /-- The connector is gone. -/
  connector : s.connectors (r.spec.host, name) = none
  /-- A record that is still stored is being deleted, without our finalizer. -/
  stored : ∀ doc, s.stored = some doc →
    doc.record.deletionRequested = true ∧ doc.record.finalizerPresent = false

/-- A record that was let go has no connector left. -/
theorem LetGo.spent (h : s.LetGo r name s') (hdeleting : r.deletionRequested = true) :
    s'.Spent r name := by
  refine ⟨?_, ?_⟩
  · rw [h.connectors, Function.update_self]
  · intro doc hdoc
    have hrevised := h.stored doc hdoc
    refine ⟨hrevised.deletionRequested.trans hdeleting, ?_⟩
    simp [Record.finalizerPresent, hrevised.finalizers]

/-- A record is gone, or a pass comes again: over the record as it is, or over the old one
when it is gone. -/
inductive Again (resync : Duration) (r : Record) (s : Remains) : Remains → Prop
  | vanish : Again resync r s s.vanish
  | reread {doc : StoredRecord} {w : List (Exchange Contact.Reply)} {s' : Remains}
      {result : Except PassError Outcome} (h : s.stored = some doc)
      (hpass : (pass resync doc.record).contact.Trace w result) (hw : Exchanged answers s w s') :
      Again resync r s s'
  | old {w : List (Exchange Contact.Reply)} {s' : Remains} {result : Except PassError Outcome}
      (h : s.stored = none) (hpass : (pass resync r).contact.Trace w result)
      (hw : Exchanged answers s w s') : Again resync r s s'

/-- A pass over what is left of the record does nothing. -/
theorem Spent.reread (h : s.Spent r name) {doc : StoredRecord} (hdoc : s.stored = some doc)
    (resync : Duration) : pass resync doc.record = .done (.ok ⟨.noAction, none⟩) := by
  obtain ⟨hdeleting, habsent⟩ := h.stored doc hdoc
  unfold pass Record.lifecycle cleanup
  rw [hdeleting, habsent]
  rfl

/-- The connector was to be deleted and the record changed, and the answers were that both
are gone. -/
def BothGone (u : List (Exchange Wire.Reply)) : Prop :=
  ∃ q response q' body,
    u = [Wire.ofCluster q (some response), Wire.ofApi q' (.answer 404 body)] ∧
      q.method = .delete ∧ response.status = 404 ∧ q'.method = .patch

/-- A pass over the old record when it is gone asks for what is done, on the wire too. -/
def AsksInVain (resync : Duration) (r : Record) (s : Remains) : Prop :=
  (pass resync r).contact.Ensures answers s fun w s' result =>
    result = .ok ⟨.delete, none⟩ ∧ s' = s ∧ ∀ u, Carries Contact.overWire w u →
      (pass resync r).overWire.Trace u result ∧ BothGone u

/-- A pass that still sees the record as it was asks in vain once it is gone. -/
theorem Spent.asksInVain (h : s.Spent r name) (hr : r.Leaving name) (hstored : s.stored = none)
    (resync : Duration) : AsksInVain resync r s := by
  have hkeeps : s.Keeps r := fun doc hdoc => nomatch hstored.symm.trans hdoc
  refine (ensures_pass_of_leaving hr hkeeps resync).traced.mono ?_
  rintro w s' result ⟨⟨rfl, x, y, s₁, rfl, hx, hy⟩, htrace⟩
  cases hx with
  | deleted hthere => exact absurd h.connector hthere
  | @absent e _ he =>
    cases hy with
    | written hthere => cases hstored.symm.trans hthere
    | @gone q' body _ hpatch =>
      refine ⟨rfl, rfl, ?_⟩
      intro u hu
      refine ⟨Work.trace_of_contacts htrace hu, ?_⟩
      obtain ⟨u₁, _, hdelete, hrest, rfl⟩ := carries_cons_iff.1 hu
      obtain ⟨u₂, _, hremove, hnone, rfl⟩ := carries_cons_iff.1 hrest
      obtain rfl := carries_nil_iff.1 hnone
      obtain rfl := Program.trace_question_iff.1 hremove
      obtain ⟨q, response, rfl, hmethod, hstatus⟩ := Connect.not_found_of_trace hdelete he
      exact ⟨q, response, q', body, rfl, hmethod, hstatus, hpatch⟩

theorem Spent.vanish (h : s.Spent r name) : s.vanish.Spent r name := by
  refine ⟨h.connector, ?_⟩
  intro doc hdoc
  have hgone : s.vanish.stored = none := rfl
  cases hgone.symm.trans hdoc

/-- Later passes change nothing, but that the record may vanish meanwhile. -/
theorem Spent.eq_of_again (h : s.Spent r name) (hr : r.Leaving name) {resync : Duration}
    (hagain : Again resync r s s') : s' = s ∨ s' = s.vanish := by
  cases hagain with
  | vanish => exact .inr rfl
  | reread hdoc hpass hw =>
    rw [h.reread hdoc] at hpass
    obtain ⟨rfl, -⟩ := trace_done_iff.1 hpass
    cases hw with
    | nil => exact .inl rfl
  | old hstored hpass hw =>
    obtain ⟨-, hsame, -⟩ := (h.asksInVain hr hstored resync).of_trace hpass hw
    exact .inl hsame

/-- However often passes come again, nothing changes, unless the record goes. -/
theorem Spent.eq_of_reflTransGen (h : s.Spent r name) (hr : r.Leaving name) {resync : Duration}
    (hagain : ReflTransGen (Again resync r) s s') :
    (s' = s ∨ s' = s.vanish) ∧ s'.Spent r name := by
  induction hagain with
  | refl => exact ⟨.inl rfl, h⟩
  | tail _ hstep ih =>
    obtain ⟨heq, hspent⟩ := ih
    obtain rfl | rfl := hspent.eq_of_again hr hstep
    · exact ⟨heq, hspent⟩
    · refine ⟨.inr ?_, hspent.vanish⟩
      obtain rfl | rfl := heq <;> rfl

/-- One pass lets a record go, whether or not its connector and the record are still there.
Passes that come again, any number of times, send nothing while the record is stored.  When
it is gone they send two requests, which find nothing. -/
theorem pass_lets_go (hr : r.Leaving name) (hcurrent : ∀ doc, s.stored = some doc → doc.record = r)
    (resync : Duration) :
    (pass resync r).contact.Ensures answers s fun _ s' result =>
      result = .ok ⟨.delete, none⟩ ∧ s.LetGo r name s' ∧
      ∀ t, ReflTransGen (Again resync r) s' t → (t = s' ∨ t = s'.vanish) ∧
        (∀ doc, t.stored = some doc → pass resync doc.record = .done (.ok ⟨.noAction, none⟩)) ∧
        (t.stored = none → AsksInVain resync r t) := by
  have hkeeps : s.Keeps r := fun doc hdoc => by rw [hcurrent doc hdoc]
  refine (ensures_pass_of_leaving hr hkeeps resync).mono ?_
  rintro w s' result ⟨rfl, x, y, s₁, -, hx, hy⟩
  have hletGo := hx.letGo hcurrent hy
  refine ⟨rfl, hletGo, ?_⟩
  intro t ht
  obtain ⟨heq, hspent⟩ := (hletGo.spent hr.deleting).eq_of_reflTransGen hr ht
  refine ⟨heq, ?_, ?_⟩
  · intro doc hdoc
    exact hspent.reread hdoc resync
  · intro hstored
    exact hspent.asksInVain hr hstored resync

/-- A record that is to be deleted, with finalizers of others before and after ours. -/
def leavingOrders : StoredRecord where
  members := [
    (some "metadata", .record [("name", .text "orders"), ("namespace", .text "prod"),
      ("deletionTimestamp", .text "2024-01-01T00:00:00Z"),
      ("finalizers", .array [.text "first", .text finalizer, .text "last"])]),
    (some "spec", .record [("debeziumHost", .text "http://dbz:8083"),
      ("config", .record [("name", .text "orders")])])]
  record := ⟨{ Metadata.empty with
      name := some "orders", namespaceName := some "prod",
      finalizers := some ["first", finalizer, "last"],
      deletionTimestamp := some ⟨1704067200, 0⟩ },
    ⟨"http://dbz:8083", .ofList [("name", "orders")]⟩, none⟩
  reads := by rfl

/-- Its connector is still there, and so are others. -/
theorem pass_lets_go_orders :
    let r := leavingOrders.record
    let place := ("http://dbz:8083", "orders")
    let s : Remains := ⟨some leavingOrders, fun _ => some r.spec.config⟩
    r.Leaving "orders" ∧ (∀ doc, s.stored = some doc → doc.record = r) ∧
      (pass (.ofSeconds 60) r).contact.Ensures answers s fun _ s' result =>
        result = .ok ⟨.delete, none⟩ ∧
        s'.connectors = Function.update s.connectors place none ∧
        (∀ doc, s'.stored = some doc → doc.record.finalizers = ["first", "last"]) ∧
        ∀ t, ReflTransGen (Again (.ofSeconds 60) r) s' t → t.connectors = s'.connectors := by
  intro r place s
  have haddressable : r.Addressable :=
    Record.addressable_of_short rfl rfl (by decide) (by decide) (by decide) (by decide) (by decide)
  have hr : r.Leaving "orders" := ⟨rfl, by decide, haddressable, by cbv⟩
  have hcurrent : ∀ doc, s.stored = some doc → doc.record = r := by
    rintro _ ⟨⟩
    rfl
  refine ⟨hr, hcurrent, (pass_lets_go hr hcurrent (.ofSeconds 60)).mono ?_⟩
  rintro w s' result ⟨hresult, hletGo, hagain⟩
  refine ⟨hresult, hletGo.connectors, ?_, ?_⟩
  · intro doc hdoc
    rw [(hletGo.stored doc hdoc).finalizers]
    decide
  · intro t ht
    obtain ⟨rfl | rfl, -⟩ := hagain t ht <;> rfl

end Remains

end ConnectorKeeper
