import ConnectorKeeper.Proofs.Admitted
import ConnectorKeeper.Proofs.FailsClosed

/-!
# Records with an accepted spec

A record is created and updated where a review allows it.  A `Chronicle` holds the
record and all reviews so far, with what the clusters were asked for them.  As long as
no removal of the record is asked for, its spec is one that a review had validated and
that was found to be in order (`Chronicle.vouched_of_leads`).  A review that allowed an
update unseen does not break this: the spec was the one before, or the record was
being deleted, and it stays so.

A pass over such a record finds the name of the connector and an address to send to.
It fails only where a neighbour fails it, which can pass by itself
(`Spec.Usable.passing_of_mayEnd`).
-/

namespace ConnectorKeeper

open Program (Exchange)
open Relation (ReflTransGen)

/-! ## Reviews -/

namespace Admission

/-- A review that was answered, with the exchanges that it took. -/
structure Reviewed where
  /-- What was asked. -/
  question : Request
  /-- The exchanges. -/
  exchanges : List (Exchange Wire.Reply)
  /-- The answer. -/
  verdict : Verdict
  /-- The answer is what the exchanges lead to. -/
  trace : question.verdict.Trace exchanges verdict

/-- The spec of the record under review was validated, and accepted. -/
def Reviewed.Accepts (x : Reviewed) (s : Spec) : Prop :=
  ∃ r, x.question.object = some r ∧ r.spec = s ∧ s.validate.Trace x.exchanges (.ok ())

/-- What is allowed after validation was validated. -/
theorem validate_of_trace_validated {r : Record} {w : List (Exchange Wire.Reply)}
    (h : (validated r).Trace w .allow) : r.spec.validate.Trace w (.ok ()) := by
  obtain ⟨result, w₁, w₂, hvalidate, hend, rfl⟩ := Program.trace_bind_iff.1 h
  cases result with
  | error e => cases (Program.trace_done_iff.1 hend).2
  | ok =>
    obtain ⟨rfl, -⟩ := Program.trace_done_iff.1 hend
    rwa [List.append_nil]

/-- What is allowed needs no validation, or was accepted. -/
theorem Reviewed.exempt_or_accepts {x : Reviewed} {r : Record} (hallow : x.verdict = .allow)
    (hobject : x.question.object = some r) : x.question.Exempt ∨ x.Accepts r.spec := by
  have htrace := x.trace
  rw [hallow] at htrace
  obtain ⟨hexempt, -⟩ | ⟨-, -, -, hdenied⟩ | ⟨-, r', hobject', hvalidated⟩ :=
    Request.cases_of_trace_verdict htrace
  · exact .inl hexempt
  · exact absurd rfl hdenied
  · obtain rfl := Option.some.inj (hobject.symm.trans hobject')
    exact .inr ⟨r, hobject, rfl, validate_of_trace_validated hvalidated⟩

end Admission

/-! ## Chronicles -/

open Admission (Reviewed)

/-- The record that is kept of an object: the server adds entries of its own, and
leaves the spec and the mark of a removal. -/
structure Record.Keeps (r object : Record) : Prop where
  /-- The spec is that of the object. -/
  spec : r.spec = object.spec
  /-- The mark is that of the object. -/
  mark : r.metadata.deletionTimestamp = object.metadata.deletionTimestamp

theorem Record.Keeps.deletionRequested {r object : Record} (h : r.Keeps object) :
    r.deletionRequested = object.deletionRequested := congrArg Option.isSome h.mark

/-- The record of one name at one time, and the reviews of it so far. -/
structure Chronicle where
  /-- The record, none if there is none. -/
  stored : Option Record
  /-- The reviews, the latest first. -/
  reviews : List Reviewed

namespace Chronicle

/-- Nothing has happened. -/
def start : Chronicle := ⟨none, []⟩

/-- The record is replaced. -/
def store (s : Chronicle) (r : Option Record) : Chronicle := { s with stored := r }

/-- A review has been answered. -/
def answer (s : Chronicle) (x : Reviewed) : Chronicle := { s with reviews := x :: s.reviews }

/-- What may happen next. -/
inductive Next (s : Chronicle) : Chronicle → Prop
  /-- A record is created that a review allows. -/
  | create {object r : Record} {x : Reviewed} (hnone : s.stored = none)
      (hcreate : x.question.operation = .create) (hobject : x.question.object = some object)
      (hmark : object.metadata.deletionTimestamp = none) (hallow : x.verdict = .allow)
      (hkeeps : r.Keeps object) : Next s ((s.answer x).store r)
  /-- The record is updated as a review allows that is told what is stored. -/
  | update {old object r : Record} {x : Reviewed} (hstored : s.stored = some old)
      (hupdate : x.question.operation = .update) (hobject : x.question.object = some object)
      (hold : x.question.oldObject = some old)
      (hmark : object.metadata.deletionTimestamp = old.metadata.deletionTimestamp)
      (hallow : x.verdict = .allow) (hkeeps : r.Keeps object) : Next s ((s.answer x).store r)
  /-- Nothing comes of a review. -/
  | review (x : Reviewed) : Next s (s.answer x)
  /-- Our patch of the finalizers is applied. -/
  | finalizers {r r' snapshot : Record} {l : List String} (hstored : s.stored = some r)
      (h : r.Patched (Store.finalizersPatch snapshot l) r') : Next s (s.store r')
  /-- Our patch of the status is applied. -/
  | status {r r' : Record} {status : Status} (hstored : s.stored = some r)
      (h : r.Patched (Store.statusPatch status) r') : Next s (s.store r')
  /-- The removal of the record is asked for. -/
  | mark {r : Record} (t : Timestamp) (hstored : s.stored = some r) :
      Next s (s.store (r.marked t))
  /-- The record is removed. -/
  | remove : Next s (s.store none)

/-- A history from one time to another. -/
abbrev Leads : Chronicle → Chronicle → Prop := ReflTransGen Next

/-- A record whose removal is not asked for has a spec that was once accepted. -/
def Vouched (s : Chronicle) : Prop :=
  ∀ r, s.stored = some r → r.deletionRequested = false → ∃ x ∈ s.reviews, x.Accepts r.spec

/-- At the start no record needs to be vouched for. -/
theorem vouched_start : start.Vouched := by
  intro r hstored
  cases hstored

variable {s s' : Chronicle}

/-- A new version of the record with the same spec and mark is as good. -/
theorem Vouched.revise {r r' : Record} (hs : s.Vouched) (hstored : s.stored = some r)
    (hspec : r'.spec = r.spec) (hmark : r'.deletionRequested = r.deletionRequested) :
    (s.store r').Vouched := by
  rintro _ ⟨⟩ hlive
  rw [hspec]
  exact hs r hstored (hmark.symm.trans hlive)

/-- Every step leaves a record that is vouched for. -/
theorem Vouched.next (hs : s.Vouched) (h : s.Next s') : s'.Vouched := by
  cases h with
  | @create object r x hnone hcreate hobject hmark hallow hkeeps =>
    rintro _ ⟨⟩ hlive
    obtain hexempt | haccepts := Reviewed.exempt_or_accepts hallow hobject
    · exact absurd hexempt (Admission.Request.not_exempt_create hcreate)
    · exact ⟨x, List.mem_cons_self, hkeeps.spec ▸ haccepts⟩
  | @update old object r x hstored hupdate hobject hold hmark hallow hkeeps =>
    rintro _ ⟨⟩ hlive
    have hlive' : object.deletionRequested = false := hkeeps.deletionRequested ▸ hlive
    rw [hkeeps.spec]
    obtain hexempt | haccepts := Reviewed.exempt_or_accepts hallow hobject
    · cases hexempt with
      | other _ hother => exact absurd hupdate hother
      | deleting _ hobject' hdeleting =>
        obtain rfl := Option.some.inj (hobject.symm.trans hobject')
        rw [hlive'] at hdeleting
        cases hdeleting
      | unchanged _ hobject' hold' hspec =>
        obtain rfl := Option.some.inj (hobject.symm.trans hobject')
        obtain rfl := Option.some.inj (hold.symm.trans hold')
        -- the record before was live too, as only the server marks it
        obtain ⟨y, hy, haccepts⟩ :=
          hs old hstored ((congrArg Option.isSome hmark).symm.trans hlive')
        exact ⟨y, List.mem_cons_of_mem _ hy, hspec ▸ haccepts⟩
    · exact ⟨x, List.mem_cons_self, haccepts⟩
  | review x =>
    intro r hstored hlive
    obtain ⟨y, hy, haccepts⟩ := hs r hstored hlive
    exact ⟨y, List.mem_cons_of_mem _ hy, haccepts⟩
  | finalizers hstored h =>
    obtain ⟨hspec, hmark, -⟩ := h.of_finalizers
    exact hs.revise hstored hspec hmark
  | status hstored h =>
    obtain ⟨hspec, hmark, -⟩ := h.of_status
    exact hs.revise hstored hspec hmark
  | mark t hstored =>
    rintro _ ⟨⟩ hlive
    cases hlive
  | remove =>
    intro r hstored
    cases hstored

/-- So does every history. -/
theorem vouched_of_leads (h : start.Leads s) : s.Vouched := by
  induction h with
  | refl => exact vouched_start
  | tail _ hnext ih => exact ih.next hnext

end Chronicle

/-! ## How a pass over such a record can fail -/

namespace Work

variable {α β : Type}

theorem mayEnd_ask_iff {n : Neighbour} {next : n.Reply → Work α} {a : α} :
    (Work.overWire (.ask n next)).MayEnd a ↔
      ∃ reply, n.overWire.MayEnd reply ∧ (next reply).overWire.MayEnd a :=
  Program.mayEnd_bind ..

/-- Work after work ends on the wire where the second does, after an end of the first. -/
theorem mayEnd_bind_iff {p : Work β} {f : β → Work α} {a : α} :
    (Work.overWire (Program.bind p f)).MayEnd a ↔
      ∃ b, p.overWire.MayEnd b ∧ (f b).overWire.MayEnd a := by
  induction p with
  | done b => simp [overWire, Program.bind, Program.run]
  | ask n next ih =>
    simp only [Program.bind, mayEnd_ask_iff, ih]
    constructor
    · rintro ⟨reply, hreply, b, hb, ha⟩
      exact ⟨b, ⟨reply, hreply, hb⟩, ha⟩
    · rintro ⟨b, ⟨reply, hreply, hb⟩, ha⟩
      exact ⟨reply, hreply, b, hb, ha⟩

end Work

namespace Connect

/-- Without a fault in the host, an exchange fails where its request cannot be sent, or
is not answered, or is answered with an error. -/
theorem cases_of_mayEnd_exchange {α : Type} {host : String} {base : Url}
    (hbase : Url.parse? host = some base) {segments : List String} {method : Http.Method}
    {body : Option Json} {judge : Http.Response → Except ClusterError α}
    {result : Except ClusterError α}
    (h : (exchange host segments method body judge).MayEnd result) :
    (∃ url, result = .error (.unsendable url)) ∨ (∃ url, result = .error (.noResponse url)) ∨
      ∃ response, result = judge response := by
  rw [exchange_of_parse hbase] at h
  split at h
  · obtain ⟨reply, h⟩ := (Program.mayEnd_ask ..).1 h
    cases reply with
    | none => exact .inr (.inl ⟨_, (Program.mayEnd_done ..).1 h⟩)
    | some response => exact .inr (.inr ⟨response, (Program.mayEnd_done ..).1 h⟩)
  · exact .inl ⟨_, (Program.mayEnd_done ..).1 h⟩

/-- Responses are never taken for a fault in the host. -/
def Blameless {α : Type} (judge : Http.Response → Except ClusterError α) : Prop :=
  ∀ response host, judge response ≠ .error (.invalidHost host)

theorem blameless_lookup : Blameless fun response : Http.Response =>
    if response.status = 200 then .ok Presence.present
    else if response.status = 404 then .ok .absent
    else .error (unexpected "exists" response) := by
  intro response host
  dsimp only
  split
  · simp
  · split <;> simp [unexpected]

/-- Whether a response is accepted or not, the host is not blamed. -/
theorem blameless_accept (operation : String) (statuses : List Nat) :
    Blameless (accept operation statuses) := by
  intro response host
  unfold accept
  split <;> simp [unexpected]

theorem blameless_acceptBody {α : Type} (operation : String) (decoder : Json.Decoder α) :
    Blameless (acceptBody operation decoder) := by
  intro response host
  unfold acceptBody decodeBody
  split
  · split <;> simp
  · simp [unexpected]

/-- Without a fault in the host, none is found. -/
theorem not_invalidHost {α : Type} {host : String} (hhost : (Url.parse? host).isSome)
    {segments : List String} {method : Http.Method} {body : Option Json}
    {judge : Http.Response → Except ClusterError α} (hjudge : Blameless judge) {e : ClusterError}
    (h : (exchange host segments method body judge).MayEnd (.error e)) (host' : String) :
    e ≠ .invalidHost host' := by
  rintro rfl
  obtain ⟨base, hbase⟩ := Option.isSome_iff_exists.1 hhost
  obtain ⟨url, h⟩ | ⟨url, h⟩ | ⟨response, h⟩ := cases_of_mayEnd_exchange hbase h
  · cases h
  · cases h
  · exact hjudge response host' h.symm

end Connect

/-- An error that comes of a neighbour. -/
inductive PassError.Passing : PassError → Prop
  | cluster {e : ClusterError} (h : ∀ host, e ≠ .invalidHost host) : Passing (.cluster e)
  | store (e : StoreError) : Passing (.store e)

theorem PassError.Passing.transient {e : PassError} (h : e.Passing) : e.kind = .transient := by
  cases h <;> rfl

/-- Whatever is answered on the wire, a step fails only through a neighbour. -/
def Step.FailsPassing {α : Type} (p : Step α) : Prop :=
  ∀ e, p.overWire.MayEnd (.error e) → e.Passing

namespace Step

variable {α β : Type}

theorem failsPassing_ok (a : α) : FailsPassing (.done (.ok a)) := by
  intro e h
  cases (Program.mayEnd_done ..).1 h

theorem failsPassing_error {e : PassError} (h : e.Passing) :
    FailsPassing (.done (.error e) : Step α) := by
  intro e' he
  cases (Program.mayEnd_done ..).1 he
  exact h

/-- The error of an exchange with a cluster, without a fault in the host. -/
theorem failsPassing_exchange {host : String} (hhost : (Url.parse? host).isSome)
    {segments : List String} {method : Http.Method} {body : Option Json}
    {judge : Http.Response → Except ClusterError β} (hjudge : Connect.Blameless judge)
    {e : ClusterError}
    (h : (Connect.exchange host segments method body judge).MayEnd (.error e)) :
    FailsPassing (.done (.error (.cluster e)) : Step α) :=
  failsPassing_error (.cluster (Connect.not_invalidHost hhost hjudge h))

theorem failsPassing_ask {n : Neighbour} {next : n.Reply → Step α}
    (h : ∀ reply, n.overWire.MayEnd reply → (next reply).FailsPassing) :
    FailsPassing (.ask n next) := by
  intro e he
  obtain ⟨reply, hreply, he⟩ := Work.mayEnd_ask_iff.1 he
  exact h reply hreply e he

/-- Work before a step does not matter if the step fails in passing only. -/
theorem failsPassing_bind {p : Work β} {f : β → Step α}
    (h : ∀ b, p.overWire.MayEnd b → (f b).FailsPassing) : FailsPassing (Program.bind p f) := by
  intro e he
  obtain ⟨b, hb, he⟩ := Work.mayEnd_bind_iff.1 he
  exact h b hb e he

end Step

/-- A spec with the name of a connector and a base URL. -/
structure Spec.Usable (s : Spec) : Prop where
  /-- The name is there. -/
  named : (s.config.get? nameKey).isSome
  /-- The host is a base URL. -/
  based : (Url.parse? s.host).isSome

/-- A spec that was validated has a name for its connector and a host to reach it. -/
theorem Spec.usable_of_validate {s : Spec} {w : List (Exchange Wire.Reply)}
    (h : s.validate.Trace w (.ok ())) : s.Usable := by
  obtain ⟨-, -, hrejected⟩ | ⟨hchecks, -, hresult⟩ := cases_of_trace_validate h
  · exact absurd rfl hrejected
  · obtain ⟨q, response, -, hasks, -⟩ := hresult.1 rfl
    obtain ⟨base, hbase, -⟩ := hasks.url
    exact ⟨isSome_of_localChecks hchecks, hbase ▸ rfl⟩

section Pass

open Step (failsPassing_ok failsPassing_error failsPassing_exchange failsPassing_ask
  failsPassing_bind)

variable {r : Record} {host : String}

/-- With a host that can be read, observing a connector fails in passing only. -/
theorem observe_failsPassing (hhost : (Url.parse? host).isSome) (name : String) :
    (observe host name).FailsPassing := by
  refine failsPassing_ask fun found hfound => ?_
  rcases found with e | _ | _
  · exact failsPassing_exchange hhost Connect.blameless_lookup hfound
  · refine failsPassing_ask fun config hconfig => ?_
    rcases config with e | config
    · exact failsPassing_exchange hhost (Connect.blameless_acceptBody _ _) hconfig
    · exact failsPassing_ask fun _ _ => failsPassing_ok _
  · exact failsPassing_ok _

theorem finish_failsPassing (resync : Duration) (r : Record) (action : Action) (phase : Phase)
    (reason message : String) : (finish resync r action phase reason message).FailsPassing :=
  failsPassing_bind fun _ _ => failsPassing_ok _

theorem converge_failsPassing (resync : Duration) (hhost : (Url.parse? r.spec.host).isSome)
    (name : String) (seen : Observation) : (converge resync r name seen).FailsPassing := by
  unfold converge
  split
  · refine failsPassing_ask fun created hcreated => ?_
    rcases created with e | _
    · exact failsPassing_exchange hhost (Connect.blameless_accept _ _) hcreated
    · exact finish_failsPassing _ _ _ _ _ _
  · refine failsPassing_ask fun updated hupdated => ?_
    rcases updated with e | _
    · exact failsPassing_exchange hhost (Connect.blameless_accept _ _) hupdated
    · exact finish_failsPassing _ _ _ _ _ _
  · exact finish_failsPassing _ _ _ _ _ _

/-- With a usable spec, a sync fails in passing only. -/
theorem sync_failsPassing (resync : Duration) (h : r.spec.Usable) :
    (sync resync r).FailsPassing := by
  obtain ⟨name, hname⟩ := Option.isSome_iff_exists.1 h.named
  have hname : r.connectorName = some name := hname
  simp only [sync, hname]
  refine failsPassing_bind fun seen hseen => ?_
  rcases seen with e | seen
  · exact failsPassing_error (observe_failsPassing h.based name e hseen)
  · exact converge_failsPassing resync h.based name seen

/-- The finalizer is not put on where the record cannot be written. -/
theorem ensure_fails {e : FinalizerError} (h : (Finalizer.ensure r).overWire.MayEnd (.error e)) :
    ∃ e', e = .store e' := by
  unfold Finalizer.ensure at h
  split at h
  · cases (Program.mayEnd_done ..).1 h
  · obtain ⟨reply, -, h⟩ := Work.mayEnd_ask_iff.1 h
    rcases reply with e' | _ <;> cases (Program.mayEnd_done ..).1 h
    exact ⟨e', rfl⟩

/-- Adopting fails in passing only as well. -/
theorem adopt_failsPassing (resync : Duration) (h : r.spec.Usable) :
    (adopt resync r).FailsPassing := by
  obtain ⟨name, hname⟩ := Option.isSome_iff_exists.1 h.named
  have hname : r.connectorName = some name := hname
  simp only [adopt, hname]
  refine failsPassing_bind fun registered hregistered => ?_
  rcases registered with e | _
  · obtain ⟨e', rfl⟩ := ensure_fails hregistered
    exact failsPassing_error (.store e')
  · exact sync_failsPassing resync h

/-- A pass over a live record of a usable spec fails only through a neighbour. -/
theorem pass_failsPassing (resync : Duration) (h : r.spec.Usable)
    (hlive : r.deletionRequested = false) : (pass resync r).FailsPassing := by
  unfold pass Record.lifecycle
  rw [hlive]
  cases r.finalizerPresent with
  | true => exact sync_failsPassing resync h
  | false => exact adopt_failsPassing resync h

end Pass

namespace Chronicle

variable {s : Chronicle} {r : Record}

/-- The spec of a live record was once accepted, and no pass over the record fails for
good. -/
theorem passing_of_leads (h : start.Leads s) (hstored : s.stored = some r)
    (hlive : r.metadata.deletionTimestamp = none) :
    (∃ x ∈ s.reviews, x.Accepts r.spec) ∧
      ∀ resync w e, (pass resync r).overWire.Trace w (.error e) →
        (∀ path, e ≠ .missingField path) ∧ (∀ host, e ≠ .cluster (.invalidHost host)) ∧
          e.kind = .transient := by
  have hlive : r.deletionRequested = false := congrArg Option.isSome hlive
  obtain ⟨x, hx, haccepts⟩ := vouched_of_leads h r hstored hlive
  refine ⟨⟨x, hx, haccepts⟩, fun resync w e hfailed => ?_⟩
  obtain ⟨_, -, -, hvalidate⟩ := haccepts
  have hpassing : e.Passing := pass_failsPassing resync (Spec.usable_of_validate hvalidate) hlive e
    (Program.mayEnd_of_trace hfailed)
  refine ⟨?_, ?_, hpassing.transient⟩
  · rintro path rfl
    cases hpassing
  · rintro host rfl
    cases hpassing with
    | cluster h => exact h host rfl

/-- Surroundings in which nothing is answered. -/
def silent : (q : Wire) → q.Reply
  | .cluster _ => none
  | .api _ => .dropped ""
  | .clock => ⟨0, 0⟩

/-- A record is created, and its cluster asked about it.  It is updated without a look
at it.  Then a pass over it is not answered. -/
theorem passing_of_leads_orders :
    let created : Record :=
      ⟨.empty, ⟨"http://dbz:8083", .ofList [("connector.class", "C"), ("name", "c")]⟩, none⟩
    let held : Record :=
      { created with metadata := { created.metadata with finalizers := some [finalizer] } }
    let s (x y : Reviewed) := (((start.answer x).store created).answer y).store held
    let run := (pass ⟨30, by decide⟩ held).overWire.transcript silent
    ∃ x y e, start.Leads (s x y) ∧ (∃ z ∈ (s x y).reviews, z.Accepts held.spec) ∧
      run.2 = .error e ∧ e.kind = .transient := by
  intro created held s run
  have hfirst : ((Admission.Request.verdict ⟨"u1", .create, some created, none⟩).transcript
      Admission.acceptsAll).2 = .allow := by decide +kernel
  have hsecond : ((Admission.Request.verdict ⟨"u2", .update, some held, some created⟩).transcript
      silent).2 = .allow := by decide +kernel
  have hrun : run.2 = .error (.cluster (.noResponse "http://dbz:8083/connectors/c")) := by
    decide +kernel
  let x : Reviewed := ⟨_, _, _, Program.trace_transcript Admission.acceptsAll
    (Admission.Request.verdict ⟨"u1", .create, some created, none⟩)⟩
  let y : Reviewed := ⟨_, _, _, Program.trace_transcript silent
    (Admission.Request.verdict ⟨"u2", .update, some held, some created⟩)⟩
  have hleads : start.Leads (s x y) :=
    .tail (.single (.create rfl rfl rfl rfl hfirst ⟨rfl, rfl⟩))
      (.update rfl rfl rfl rfl rfl hsecond ⟨rfl, rfl⟩)
  obtain ⟨haccepted, hpassing⟩ := passing_of_leads hleads rfl rfl
  have htrace : (pass ⟨30, by decide⟩ held).overWire.Trace run.1 run.2 :=
    Program.trace_transcript silent _
  rw [hrun] at htrace
  exact ⟨x, y, _, hleads, haccepted, hrun, (hpassing _ _ _ htrace).2.2⟩

end Chronicle

end ConnectorKeeper
