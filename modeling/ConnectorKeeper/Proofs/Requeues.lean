import ConnectorKeeper.Proofs.DelayWords
import ConnectorKeeper.Proofs.FinalizerUpdates
import ConnectorKeeper.Proofs.PassWalk
import ConnectorKeeper.Reconcile.Controller

/-!
# When the next pass is due

No record is forgotten.  A pass ends in one of five ways (`Record.Ending`).  In three of
them nothing is done until the record changes: the record was being deleted and is let
go, or has been, or it is live and does not name its connector.  After any other end the
next pass is due by itself, soon enough (`Record.requeued_of_trace`).
-/

namespace ConnectorKeeper

open Program (Exchange trace_ask_iff trace_bind_iff trace_done_iff)

/-- Whoever answers a program, its results are the same. -/
theorem Program.mayEnd_of_run {Ask Ask' : Type} {Reply : Ask → Type} {Reply' : Ask' → Type}
    {α : Type} {answer : (q : Ask) → Program Ask' Reply' (Reply q)} {p : Program Ask Reply α}
    {a : α} (h : (p.run answer).MayEnd a) : p.MayEnd a := by
  induction p with
  | done b =>
    obtain rfl := (mayEnd_done ..).1 h
    exact .done a
  | ask q next ih =>
    obtain ⟨r, -, h⟩ := (mayEnd_bind ..).1 h
    exact .after r (ih r h)

/-! ## Passes over live records -/

/-- The step succeeds as demanded, or a neighbour fails it. -/
def Step.Serves {α : Type} (p : Step α) (good : α → Prop) : Prop :=
  ∀ result, p.MayEnd result →
    (∃ a, result = .ok a ∧ good a) ∨ ∃ e, result = .error e ∧ e.kind = .transient

namespace Step

variable {α β : Type} {good : α → Prop}

theorem serves_ok {a : α} (h : good a) : Serves (.done (.ok a)) good := by
  intro result hresult
  exact .inl ⟨a, (Program.mayEnd_done ..).1 hresult, h⟩

theorem serves_error {e : PassError} (h : e.kind = .transient) :
    Serves (.done (.error e)) good := by
  intro result hresult
  exact .inr ⟨e, (Program.mayEnd_done ..).1 hresult, h⟩

theorem serves_ask {n : Neighbour} {next : n.Reply → Step α}
    (h : ∀ reply, (next reply).Serves good) : Serves (.ask n next) good := by
  intro result hresult
  obtain ⟨reply, hresult⟩ := (Program.mayEnd_ask ..).1 hresult
  exact h reply result hresult

/-- Work before a step does not matter if the step serves after each of its results. -/
theorem serves_bind {p : Work β} {f : β → Step α} (h : ∀ b, p.MayEnd b → (f b).Serves good) :
    Serves (Program.bind p f) good := by
  intro result hresult
  obtain ⟨b, hb, hresult⟩ := (Program.mayEnd_bind ..).1 hresult
  exact h b hb result hresult

end Step

section Live

open Step (serves_ok serves_error serves_ask serves_bind)

variable {r : Record} {resync : Duration}

theorem observe_serves (host name : String) : (observe host name).Serves fun _ => True := by
  refine serves_ask fun found => ?_
  rcases found with _ | _ | _
  · exact serves_error rfl
  · refine serves_ask fun config => ?_
    cases config with
    | error => exact serves_error rfl
    | ok => exact serves_ask fun _ => serves_ok trivial
  · exact serves_ok trivial

/-- What ends a pass well asks for the next one after the resync interval. -/
theorem finish_serves (action : Action) (phase : Phase) (reason message : String) :
    (finish resync r action phase reason message).Serves (·.requeueAfter = some resync) :=
  serves_bind fun _ _ => serves_ok rfl

theorem converge_serves (name : String) (seen : Observation) :
    (converge resync r name seen).Serves (·.requeueAfter = some resync) := by
  unfold converge
  split
  · refine serves_ask fun created => ?_
    cases created with
    | error => exact serves_error rfl
    | ok => exact finish_serves _ _ _ _
  · refine serves_ask fun updated => ?_
    cases updated with
    | error => exact serves_error rfl
    | ok => exact finish_serves _ _ _ _
  · exact finish_serves _ _ _ _

/-- A synced record is seen again after the resync interval, or the error is transient. -/
theorem sync_serves {name : String} (hname : r.connectorName = some name) :
    (sync resync r).Serves (·.requeueAfter = some resync) := by
  simp only [sync, hname]
  refine serves_bind fun seen hseen => ?_
  obtain ⟨seen, rfl, -⟩ | ⟨e, rfl, he⟩ := observe_serves _ _ seen hseen
  · exact converge_serves name seen
  · exact serves_error he

/-- An error on the way to the finalizer is transient. -/
theorem ensure_serves {e : FinalizerError} (h : (Finalizer.ensure r).MayEnd (.error e)) :
    (PassError.ofFinalizer e).kind = .transient := by
  unfold Finalizer.ensure at h
  split at h
  · simp at h
  · obtain ⟨added, h⟩ := (Program.mayEnd_ask ..).1 h
    cases added with
    | ok => simp at h
    | error =>
      cases (Program.mayEnd_done ..).1 h
      rfl

theorem adopt_serves {name : String} (hname : r.connectorName = some name) :
    (adopt resync r).Serves (·.requeueAfter = some resync) := by
  simp only [adopt, hname]
  refine serves_bind fun registered hregistered => ?_
  cases registered with
  | error => exact serves_error (ensure_serves hregistered)
  | ok => exact sync_serves hname

/-- A live record with a name for its connector is seen again after the resync interval, or
the error is transient. -/
theorem pass_serves {name : String} (hlive : r.deletionRequested = false)
    (hname : r.connectorName = some name) :
    (pass resync r).Serves (·.requeueAfter = some resync) := by
  unfold pass Record.lifecycle
  rw [hlive]
  cases r.finalizerPresent with
  | true => exact sync_serves hname
  | false => exact adopt_serves hname

/-- A live record without a name for its connector ends in the one error that is not
transient. -/
theorem pass_nameless (hlive : r.deletionRequested = false) (hname : r.connectorName = none) :
    pass resync r = .done (.error .nameless) := by
  unfold pass Record.lifecycle
  rw [hlive]
  cases r.finalizerPresent <;> simp [sync, adopt, hname]

end Live

/-! ## Letting a record go -/

/-- Our finalizer is off the record, or the record is gone. -/
def Api.Reply.Releases (reply : Api.Reply) : Prop :=
  (∃ changed, Api.judge Record.decoder reply = .ok changed) ∨
    ∃ e, Api.judge Record.decoder reply = .error (.api e) ∧ e.code = 404

/-- The last request was to take our finalizer off, and the answer was that it is off. -/
def Released (w : List (Exchange Wire.Reply)) : Prop :=
  ∃ before q reply, w = before ++ [Wire.ofApi q reply] ∧ (Wire.api q).RemovesFinalizer ∧
    reply.Releases

/-- What came before the last request does not matter to the release. -/
theorem Released.append {w : List (Exchange Wire.Reply)} (h : Released w)
    (before : List (Exchange Wire.Reply)) : Released (before ++ w) := by
  obtain ⟨before', q, reply, rfl, hq, hreply⟩ := h
  exact ⟨before ++ before', q, reply, (List.append_assoc ..).symm, hq, hreply⟩

/-- A patch fails before it is sent, or is one request whose answer is the result. -/
theorem Store.cases_of_patch_trace {r : Record} {part : String} {body : Json}
    {w : List (Exchange Wire.Reply)} {result : Except StoreError Unit}
    (h : (patch r part body).Trace w result) :
    (∃ e, StoreError.isGone e = false ∧ result = .error e) ∨
      ∃ q reply, q.method = .patch ∧ q.body = some body ∧ w = [Wire.ofApi q reply] ∧
        result = written (Api.judge Record.decoder reply) := by
  obtain ⟨e, hlasting, hpatch⟩ | ⟨q, -, hmethod, hbody, hpatch⟩ := cases_of_patch r part body
  · rw [hpatch] at h
    exact .inl ⟨e, hlasting, (trace_done_iff.1 h).2⟩
  · rw [hpatch] at h
    obtain ⟨reply, w', rfl, hend⟩ := trace_ask_iff.1 h
    obtain ⟨rfl, hresult⟩ := trace_done_iff.1 hend
    exact .inr ⟨q, reply, hmethod, hbody, rfl, hresult⟩

/-- The removal succeeds if the change was confirmed or the record was gone. -/
theorem Store.released_of_trace {r : Record} {w : List (Exchange Wire.Reply)}
    (h : (removeFinalizer r).Trace w (.ok ())) : Released w := by
  obtain ⟨result, w₁, w₂, hpatch, hend, rfl⟩ := trace_bind_iff.1 h
  have hended : w₂ = [] ∧ ∀ e, result = .error e → StoreError.isGone e = true := by
    cases result with
    | ok =>
      obtain ⟨rfl, -⟩ := trace_done_iff.1 hend
      exact ⟨rfl, nofun⟩
    | error e =>
      obtain ⟨rfl, hgone⟩ := trace_done_iff.1 hend
      refine ⟨rfl, ?_⟩
      rintro _ ⟨⟩
      by_contra hlasting
      rw [if_neg hlasting] at hgone
      cases hgone
  obtain ⟨rfl, hgone⟩ := hended
  obtain ⟨e, hlasting, rfl⟩ | ⟨q, reply, hmethod, hbody, rfl, rfl⟩ := cases_of_patch_trace hpatch
  · cases hlasting.symm.trans (hgone e rfl)
  · refine ⟨[], q, reply, rfl, ⟨_, (Record.finalizersPatch_sets hmethod hbody).1, by simp⟩, ?_⟩
    cases hreply : Api.judge Record.decoder reply with
    | ok changed => exact .inl ⟨changed, hreply⟩
    | error e =>
      rw [hreply] at hgone
      cases e with
      | api response => exact .inr ⟨response, hreply, eq_of_beq (hgone _ rfl)⟩
      | service | decode | buildRequest => cases hgone _ rfl

/-! ## Ends of a pass -/

/-- How a pass over a record may end, after which exchanges. -/
inductive Record.Ending (r : Record) (resync : Duration) :
    List (Exchange Wire.Reply) → Except PassError Outcome → Prop
  | kept {w : List (Exchange Wire.Reply)} {o : Outcome} (hlive : r.deletionRequested = false)
      (hname : r.connectorName.isSome) (ho : o.requeueAfter = some resync) :
      Ending r resync w (.ok o)
  | nameless (hlive : r.deletionRequested = false) (hname : r.connectorName = none) :
      Ending r resync [] (.error .nameless)
  | unguarded (hdeleting : r.deletionRequested = true) (habsent : r.finalizerPresent = false) :
      Ending r resync [] (.ok ⟨.noAction, none⟩)
  | released {w : List (Exchange Wire.Reply)} (hdeleting : r.deletionRequested = true)
      (h : Released w) : Ending r resync w (.ok ⟨.delete, none⟩)
  | failed {w : List (Exchange Wire.Reply)} {e : PassError}
      (h : r.deletionRequested = true ∨ r.connectorName.isSome) (he : e.kind = .transient) :
      Ending r resync w (.error e)

section Deleting

variable {r : Record} {resync : Duration} {w : List (Exchange Wire.Reply)}
  {result : Except PassError Outcome}

/-- Letting go ends a pass as a cleanup should. -/
theorem letGo_ending (hdeleting : r.deletionRequested = true) {known : Cleanup}
    (hpresent : r.finalizerPresent = true) (h : (letGo r known).overWire.Trace w result) :
    r.Ending resync w result := by
  simp only [letGo, Finalizer.release, hdeleting, hpresent, Bool.not_true, Bool.false_eq_true,
    if_false] at h
  obtain ⟨removed, w₁, w₂, hremoved, hend, rfl⟩ := trace_bind_iff.1 h
  cases removed with
  | ok =>
    obtain ⟨rfl, rfl⟩ := trace_done_iff.1 hend
    rw [List.append_nil]
    exact .released hdeleting (Store.released_of_trace hremoved)
  | error e =>
    obtain ⟨rfl, rfl⟩ := trace_done_iff.1 hend
    exact .failed (.inl hdeleting) rfl

theorem Record.Ending.after (h : r.Ending resync w result) (hdeleting : r.deletionRequested = true)
    (hpresent : r.finalizerPresent = true) (before : List (Exchange Wire.Reply)) :
    r.Ending resync (before ++ w) result := by
  cases h with
  | kept hlive | nameless hlive => cases hlive.symm.trans hdeleting
  | unguarded _ habsent => cases habsent.symm.trans hpresent
  | released _ h => exact .released hdeleting (h.append before)
  | failed h he => exact .failed h he

/-- A cleanup ends well after a release alone. -/
theorem cleanup_ending (hdeleting : r.deletionRequested = true)
    (h : (cleanup r).overWire.Trace w result) : r.Ending resync w result := by
  unfold cleanup at h
  cases hpresent : r.finalizerPresent with
  | false =>
    rw [hpresent] at h
    obtain ⟨rfl, rfl⟩ := trace_done_iff.1 h
    exact .unguarded hdeleting hpresent
  | true =>
    rw [hpresent, if_pos rfl] at h
    cases hname : r.connectorName with
    | none =>
      rw [hname] at h
      exact letGo_ending hdeleting hpresent h
    | some name =>
      rw [hname] at h
      obtain ⟨deleted, w₁, w₂, -, h, rfl⟩ := trace_bind_iff.1 h
      cases deleted with
      | ok => exact (letGo_ending hdeleting hpresent h).after hdeleting hpresent w₁
      | error e =>
        dsimp only at h
        split at h
        · exact (letGo_ending hdeleting hpresent h).after hdeleting hpresent w₁
        · obtain ⟨-, rfl⟩ := trace_done_iff.1 h
          exact .failed (.inl hdeleting) rfl

end Deleting

/-- Every pass ends as the stage of its record says. -/
theorem Record.ending_of_trace {r : Record} {resync : Duration} {w : List (Exchange Wire.Reply)}
    {result : Except PassError Outcome} (h : (pass resync r).overWire.Trace w result) :
    r.Ending resync w result := by
  cases hdeleting : r.deletionRequested with
  | true =>
    unfold pass lifecycle at h
    rw [hdeleting] at h
    exact cleanup_ending hdeleting h
  | false =>
    cases hname : r.connectorName with
    | none =>
      rw [pass_nameless hdeleting hname] at h
      obtain ⟨rfl, rfl⟩ := trace_done_iff.1 h
      exact .nameless hdeleting hname
    | some name =>
      have hnamed : r.connectorName.isSome := by rw [hname]; rfl
      have hresult := Program.mayEnd_of_run (Program.mayEnd_of_trace h)
      obtain ⟨o, rfl, ho⟩ | ⟨e, rfl, he⟩ := pass_serves hdeleting hname result hresult
      · exact .kept hdeleting hnamed ho
      · exact .failed (.inr hnamed) he

/-! ## The next pass -/

/-- A transient error is retried within the limit of the backoff. -/
theorem Controller.retries_afterPass (settings : ControllerSettings) (c : Controller) (r : Record)
    (elapsed : Duration) {e : PassError} (he : e.kind = .transient) :
    ∃ delay, (c.afterPass settings r (.error e) elapsed).2 = .after delay ∧
      delay ≤ settings.backoff.limit := by
  refine ⟨settings.backoff.delay ((c.failures.increment r.key).count r.key), ?_,
    settings.backoff.delay_le _⟩
  show settings.backoff.requeue _ e.kind = _
  rw [he]
  rfl

/-- When the next pass over a record is due after a pass over it. -/
structure Record.Requeued (r : Record) (settings : ControllerSettings)
    (w : List (Exchange Wire.Reply)) (result : Except PassError Outcome) (next : Requeue) :
    Prop where
  /-- It waits for a change where the record was let go, had been, or names no connector. -/
  awaits : next = .awaitChange ↔
    (r.deletionRequested = true ∧ (∃ o, result = .ok o) ∧
      (r.finalizerPresent = false ∨ Released w)) ∨
    (r.deletionRequested = false ∧ r.connectorName = none ∧ w = [])
  /-- The finalizer is never found in a wrong state. -/
  consistent : ∀ problem, result ≠ .error (.finalizerConsistency problem)
  /-- A live record is looked at again at the regular interval. -/
  resyncs : r.deletionRequested = false → ∀ o, result = .ok o → next = .after settings.resync
  /-- What failed is tried again, however often it has failed. -/
  retries : ∀ e, result = .error e → r.deletionRequested = true ∨ r.connectorName.isSome →
    ∃ delay, next = .after delay ∧ delay ≤ settings.backoff.limit

/-- No pass strands a record, whatever it is answered and whatever came before. -/
theorem Record.requeued_of_trace (settings : ControllerSettings) (c : Controller) (r : Record)
    (elapsed : Duration) {w : List (Exchange Wire.Reply)} {result : Except PassError Outcome}
    (h : (pass settings.resync r).overWire.Trace w result) :
    r.Requeued settings w result (c.afterPass settings r result elapsed).2 := by
  cases ending_of_trace h with
  | @kept _ o hlive hname ho =>
    have hnext : o.requeue = .after settings.resync := by simp [Outcome.requeue, ho]
    constructor
    case awaits =>
      constructor
      · intro hawait
        cases hnext.symm.trans hawait
      · rintro (⟨hdeleting, -⟩ | ⟨-, hnone, -⟩)
        · cases hlive.symm.trans hdeleting
        · simp [hnone] at hname
    case consistent => exact nofun
    case resyncs => exact fun _ _ _ => hnext
    case retries => exact nofun
  | nameless hlive hname =>
    constructor
    case awaits => exact iff_of_true rfl (.inr ⟨hlive, hname, rfl⟩)
    case consistent => exact nofun
    case resyncs => exact nofun
    case retries =>
      rintro _ ⟨⟩ (hdeleting | hnamed)
      · cases hlive.symm.trans hdeleting
      · simp [hname] at hnamed
  | unguarded hdeleting habsent =>
    constructor
    case awaits => exact iff_of_true rfl (.inl ⟨hdeleting, ⟨_, rfl⟩, .inl habsent⟩)
    case consistent => exact nofun
    case resyncs =>
      intro hlive
      cases hlive.symm.trans hdeleting
    case retries => exact nofun
  | released hdeleting hreleased =>
    constructor
    case awaits => exact iff_of_true rfl (.inl ⟨hdeleting, ⟨_, rfl⟩, .inr hreleased⟩)
    case consistent => exact nofun
    case resyncs =>
      intro hlive
      cases hlive.symm.trans hdeleting
    case retries => exact nofun
  | failed hwhich he =>
    have hnext := c.retries_afterPass settings r elapsed he
    constructor
    case awaits =>
      obtain ⟨delay, hnext, -⟩ := hnext
      rw [hnext]
      constructor
      · exact nofun
      · rintro (⟨-, ⟨_, ⟨⟩⟩, -⟩ | ⟨hlive, hnone, -⟩)
        obtain hdeleting | hnamed := hwhich
        · cases hlive.symm.trans hdeleting
        · simp [hnone] at hnamed
    case consistent =>
      rintro problem ⟨⟩
      cases he
    case resyncs => exact nofun
    case retries =>
      rintro _ ⟨⟩ -
      exact hnext

/-- A cluster and an API server that know nothing. -/
def Wire.gone : (q : Wire) → q.Reply
  | .cluster _ => some ⟨404, some (.ofString "")⟩
  | .api _ => .answer 404 (.ofString "")
  | .clock => ⟨0, 0⟩

/-- A record whose connector is gone, and that is gone itself meanwhile. -/
theorem Record.requeued_of_trace_orders :
    let settings : ControllerSettings := {}
    let r : Record := ⟨{ Metadata.empty with
        name := some "orders", namespaceName := some "prod",
        finalizers := some [finalizer], deletionTimestamp := some ⟨0, 0⟩ },
      ⟨"http://dbz:8083", .ofList [("name", "orders")]⟩, none⟩
    let run := (pass settings.resync r).overWire.transcript Wire.gone
    let next := (Controller.initial.afterPass settings r run.2 (.ofSeconds 1)).2
    (pass settings.resync r).overWire.Trace run.1 run.2 ∧ run.1.length = 2 ∧
      run.2 = .ok ⟨.delete, none⟩ ∧ next = .awaitChange ∧ r.Requeued settings run.1 run.2 next := by
  intro settings r run next
  have htrace : (pass settings.resync r).overWire.Trace run.1 run.2 :=
    Program.trace_transcript Wire.gone _
  have hresult : run.2 = .ok ⟨.delete, none⟩ := by decide +kernel
  refine ⟨htrace, by decide +kernel, hresult, ?_, requeued_of_trace settings .initial r _ htrace⟩
  simp only [next, hresult]
  rfl

end ConnectorKeeper
