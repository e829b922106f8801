import ConnectorKeeper.Admission.Route
import ConnectorKeeper.Json.Printer
import ConnectorKeeper.Proofs.PassHistories

/-!
# Admission fails closed

Whatever is sent to the webhook and whatever a cluster answers it, an operation is
allowed in two cases only (`Admission.Delivery.failsClosed_of_trace`).  Either it
needs no validation (`Admission.Request.Exempt`), or its record passes its own checks
and the cluster has answered that it finds nothing wrong (`Spec.Accepted`).  Every
failure on the way ends in a denial or in a status that is not 200.

The cluster is asked at most once, and only about a record that has to be validated
and passes its own checks.
-/

namespace ConnectorKeeper

open Program (Exchange)

/-! ## Reports without errors -/

namespace ValidationReport

theorem addNew_ne_nil (fields : List FieldError) (e : FieldError) : addNew fields e ≠ [] := by
  cases fields with
  | nil => simp [addNew]
  | cons f fields =>
    rw [addNew]
    split <;> simp

theorem foldl_addNew_eq_nil_iff {fields errors : List FieldError} :
    errors.foldl addNew fields = [] ↔ fields = [] ∧ errors = [] := by
  induction errors generalizing fields with
  | nil => simp
  | cons e errors ih => simp [ih, addNew_ne_nil]

/-- No error is listed, in either of the two ways. -/
def Clean (r : ValidationReport) : Prop := r.errors.toList = [] ∧ ∀ k ∈ r.keys, k.errors = []

theorem fieldErrors_eq_nil_iff {r : ValidationReport} : r.fieldErrors = [] ↔ r.Clean := by
  simp [fieldErrors, foldl_addNew_eq_nil_iff, flatErrors, keyErrors, Clean]

end ValidationReport

/-! ## Asking a cluster -/

@[simp] theorem Wire.ofCluster_inj {q q' : Http.Request} {reply reply' : Option Http.Response} :
    Wire.ofCluster q reply = Wire.ofCluster q' reply' ↔ q = q' ∧ reply = reply' := by
  constructor
  · intro h
    cases h
    exact ⟨rfl, rfl⟩
  · rintro ⟨rfl, rfl⟩
    rfl

/-- An exchange fails before anything is sent, or one request is sent; then its result
is what the response is judged to be. -/
theorem Connect.cases_of_trace_exchange {α : Type} {host : String} {segments : List String}
    {method : Http.Method} {body : Option Json} {judge : Http.Response → Except ClusterError α}
    {w : List (Exchange Wire.Reply)} {result : Except ClusterError α}
    (h : (exchange host segments method body judge).Trace w result) :
    (w = [] ∧ ∃ e, result = .error e) ∨
      ∃ base q reply, Url.parse? host = some base ∧ w = [Wire.ofCluster q reply] ∧
        q.method = method ∧ q.body = body ∧
        q.url = { origin base with path := (base.below segments).path } ∧
        match reply with
        | some response => result = judge response
        | none => ∃ e, result = .error e := by
  obtain ⟨e, -, hsend⟩ | ⟨base, q, lost, hbase, hmethod, hbody, hurl, -, hsend⟩ :=
    cases_of_exchange host segments method body judge
  · rw [hsend] at h
    obtain ⟨rfl, rfl⟩ := Program.trace_done_iff.1 h
    exact .inl ⟨rfl, _, rfl⟩
  · rw [hsend] at h
    obtain ⟨reply, w, rfl, hend⟩ := Program.trace_ask_iff.1 h
    obtain ⟨rfl, rfl⟩ := Program.trace_done_iff.1 hend
    refine .inr ⟨base, q, reply, hbase, rfl, hmethod, hbody, hurl, ?_⟩
    cases reply with
    | none => exact ⟨lost, rfl⟩
    | some response => rfl

/-- The one response is judged. -/
theorem Connect.result_of_trace_exchange {α : Type} {host : String} {segments : List String}
    {method : Http.Method} {body : Option Json} {judge : Http.Response → Except ClusterError α}
    {w : List (Exchange Wire.Reply)} {result : Except ClusterError α} {q : Http.Request}
    {response : Http.Response} (h : (exchange host segments method body judge).Trace w result)
    (hmem : Wire.ofCluster q (some response) ∈ w) : result = judge response := by
  obtain ⟨rfl, -⟩ | ⟨base, q', reply, -, rfl, -, -, -, hjudged⟩ := cases_of_trace_exchange h
  · cases hmem
  · obtain ⟨rfl, rfl⟩ := Wire.ofCluster_inj.1 (List.mem_singleton.1 hmem)
    exact hjudged

/-- A response that says that nothing is wrong: status 200, with a report that can be
read and lists no error. -/
def Http.Response.Accepting (response : Http.Response) : Prop :=
  response.status = 200 ∧ ∃ report,
    response.body.bind (Json.decodeText? ValidationReport.decoder) = some report ∧ report.Clean

theorem judgeValidation_eq_ok_iff {response : Http.Response} {report : ValidationReport} :
    judgeValidation response = .ok report ↔ response.status = 200 ∧
      response.body.bind (Json.decodeText? ValidationReport.decoder) = some report :=
  Connect.acceptBody_eq_ok_iff

namespace Spec

/-- The request to a cluster to validate a spec. -/
structure Asks (s : Spec) (q : Http.Request) : Prop where
  method : q.method = .post
  url : ∃ base, Url.parse? s.host = some base ∧ q.url = { Connect.origin base with
    path := (base.below
      ["connector-plugins", (s.config.get? classKey).getD "", "config", "validate"]).path }
  body : q.body = some (Connect.namedConfig s.config)

/-- A cluster was asked about the spec, and nothing else, and found nothing wrong. -/
def Accepted (s : Spec) (w : List (Exchange Wire.Reply)) : Prop :=
  ∃ q response, w = [Wire.ofCluster q (some response)] ∧ s.Asks q ∧ response.Accepting

variable {s : Spec} {w : List (Exchange Wire.Reply)} {result : Except ValidationError Unit}

/-- What a spec is told once its cluster was asked. -/
def conclusion : Except ClusterError ValidationReport → Except ValidationError Unit
  | .error e => .error (.cluster e)
  | .ok report =>
      if report.fieldErrors = [] then .ok () else .error (.invalid report.fieldErrors)

theorem conclusion_eq_ok_iff {judged : Except ClusterError ValidationReport} :
    conclusion judged = .ok () ↔ ∃ report, judged = .ok report ∧ report.Clean := by
  cases judged with
  | error e => simp [conclusion]
  | ok report =>
    rw [conclusion]
    split
    · next hclean => simpa using ValidationReport.fieldErrors_eq_nil_iff.1 hclean
    · next hwrong => simpa using mt ValidationReport.fieldErrors_eq_nil_iff.2 hwrong

/-- A spec that passes its own checks is told what its cluster makes of it. -/
theorem validate_eq (h : s.localChecks = []) : s.validate =
    Connect.exchange s.host
      ["connector-plugins", (s.config.get? classKey).getD "", "config", "validate"] .post
      (some (Connect.namedConfig s.config)) judgeValidation >>= fun judged =>
        .done (conclusion judged) := by
  simp only [validate, h, Program.bind_eq]
  congr 1
  funext judged
  cases judged with
  | error e => rfl
  | ok report =>
    dsimp only [conclusion]
    split
    · next hclean => rw [if_pos hclean]
    · next hwrong => rw [if_neg hwrong]

/-- A spec that fails its own checks is rejected at once.  About any other its cluster
is asked at most once, and it is accepted exactly if the cluster has accepted it. -/
theorem cases_of_trace_validate (h : s.validate.Trace w result) :
    (s.localChecks ≠ [] ∧ w = [] ∧ result ≠ .ok ()) ∨
      s.localChecks = [] ∧ (w = [] ∨ ∃ q reply, w = [Wire.ofCluster q reply] ∧ s.Asks q) ∧
        (result = .ok () ↔ s.Accepted w) := by
  by_cases hchecks : s.localChecks = []
  · refine .inr ⟨hchecks, ?_⟩
    rw [validate_eq hchecks] at h
    obtain ⟨judged, w, w₂, hexchange, hend, rfl⟩ := Program.trace_bind_iff.1 h
    obtain ⟨rfl, rfl⟩ := Program.trace_done_iff.1 hend
    rw [List.append_nil, conclusion_eq_ok_iff]
    obtain ⟨rfl, e, rfl⟩ | ⟨base, q, reply, hbase, rfl, hmethod, hbody, hurl, hjudged⟩ :=
      Connect.cases_of_trace_exchange hexchange
    · exact ⟨.inl rfl, by simp [Accepted]⟩
    · have hasks : s.Asks q := ⟨hmethod, ⟨base, hbase, hurl⟩, hbody⟩
      refine ⟨.inr ⟨q, reply, rfl, hasks⟩, ?_⟩
      cases reply with
      | none =>
        obtain ⟨e, rfl⟩ := hjudged
        simp [Accepted]
      | some response =>
        have hjudged : judged = judgeValidation response := hjudged
        simp [hjudged, Accepted, judgeValidation_eq_ok_iff, Http.Response.Accepting, hasks,
          and_assoc]
  · unfold validate at h
    split at h
    · contradiction
    · obtain ⟨rfl, rfl⟩ := Program.trace_done_iff.1 h
      exact .inl ⟨hchecks, rfl, nofun⟩

end Spec

/-! ## Verdicts -/

namespace Admission

/-- An operation that is allowed without looking at the record. -/
inductive Request.Exempt (q : Request) : Prop
  /-- Nothing is created or updated. -/
  | other (hcreate : q.operation ≠ .create) (hupdate : q.operation ≠ .update)
  /-- The record is being deleted. -/
  | deleting {r : Record} (hupdate : q.operation = .update) (hobject : q.object = some r)
      (hdeleting : r.deletionRequested = true)
  /-- The spec is as before. -/
  | unchanged {r old : Record} (hupdate : q.operation = .update) (hobject : q.object = some r)
      (hold : q.oldObject = some old) (hspec : old.spec = r.spec)

/-- The record of an operation is in order by itself, and a cluster has accepted it. -/
def Request.Accepted (q : Request) (w : List (Exchange Wire.Reply)) : Prop :=
  ∃ r, q.object = some r ∧ r.spec.localChecks = [] ∧ r.spec.Accepted w

/-- The exchange is a request about the record of an operation that has to be
validated, and that is in order by itself. -/
def Request.Asks (q : Request) (x : Exchange Wire.Reply) : Prop :=
  ¬ q.Exempt ∧ ∃ r request reply, q.object = some r ∧ r.spec.localChecks = [] ∧
    r.spec.Asks request ∧ x = Wire.ofCluster request reply

variable {q : Request} {w : List (Exchange Wire.Reply)} {verdict : Verdict}

theorem Request.exempt_update_iff {q : Request} {r : Record} (hupdate : q.operation = .update)
    (hobject : q.object = some r) : q.Exempt ↔ q.unchangedOrDeleting r = true := by
  simp only [unchangedOrDeleting, Bool.or_eq_true, Option.any_eq_true, decide_eq_true_eq]
  constructor
  · intro h
    cases h with
    | other _ hother => exact absurd hupdate hother
    | deleting _ hobject' hdeleting =>
      obtain rfl := Option.some.inj (hobject.symm.trans hobject')
      exact .inl hdeleting
    | unchanged _ hobject' hold hspec =>
      obtain rfl := Option.some.inj (hobject.symm.trans hobject')
      exact .inr ⟨_, hold, hspec⟩
  · rintro (hdeleting | ⟨old, hold, hspec⟩)
    · exact .deleting hupdate hobject hdeleting
    · exact .unchanged hupdate hobject hold hspec

theorem Request.not_exempt_create (hcreate : q.operation = .create) : ¬ q.Exempt := by
  intro h
  cases h with
  | other hother => exact hother hcreate
  | deleting hupdate => cases hcreate.symm.trans hupdate
  | unchanged hupdate => cases hcreate.symm.trans hupdate

theorem Request.not_exempt_none (h : q.operation = .create ∨ q.operation = .update)
    (hobject : q.object = none) : ¬ q.Exempt := by
  intro hexempt
  cases hexempt with
  | other hcreate hupdate => exact h.elim hcreate hupdate
  | deleting _ hobject' => cases hobject.symm.trans hobject'
  | unchanged _ hobject' => cases hobject.symm.trans hobject'

/-- The three ways to a verdict. -/
theorem Request.cases_of_trace_verdict (h : q.verdict.Trace w verdict) :
    (q.Exempt ∧ w = [] ∧ verdict = .allow) ∨
      (¬ q.Exempt ∧ q.object = none ∧ w = [] ∧ verdict ≠ .allow) ∨
      ¬ q.Exempt ∧ ∃ r, q.object = some r ∧ (validated r).Trace w verdict := by
  obtain ⟨uid, operation, object, oldObject⟩ := q
  have hnone (hoperation : operation = .create ∨ operation = .update) (hobject : object = none) :=
    not_exempt_none (q := ⟨uid, operation, object, oldObject⟩) hoperation hobject
  cases operation with
  | create =>
    cases object with
    | none =>
      obtain ⟨rfl, rfl⟩ := Program.trace_done_iff.1 h
      exact .inr (.inl ⟨hnone (.inl rfl) rfl, rfl, rfl, nofun⟩)
    | some r => exact .inr (.inr ⟨not_exempt_create rfl, r, rfl, h⟩)
  | update =>
    cases object with
    | none =>
      obtain ⟨rfl, rfl⟩ := Program.trace_done_iff.1 h
      exact .inr (.inl ⟨hnone (.inr rfl) rfl, rfl, rfl, nofun⟩)
    | some r =>
      simp only [Request.verdict] at h
      split at h
      · next hexempt =>
        obtain ⟨rfl, rfl⟩ := Program.trace_done_iff.1 h
        exact .inl ⟨(exempt_update_iff rfl rfl).2 hexempt, rfl, rfl⟩
      · next hexempt =>
        exact .inr (.inr ⟨fun h => hexempt ((exempt_update_iff rfl rfl).1 h), r, rfl, h⟩)
  | delete | connect =>
    obtain ⟨rfl, rfl⟩ := Program.trace_done_iff.1 h
    exact .inl ⟨.other nofun nofun, rfl, rfl⟩

/-- A record that has to be validated is let through exactly if its cluster accepts it. -/
theorem cases_of_trace_validated {r : Record} (h : (validated r).Trace w verdict) :
    (w = [] ∨ r.spec.localChecks = [] ∧
      ∃ request reply, w = [Wire.ofCluster request reply] ∧ r.spec.Asks request) ∧
    (verdict = .allow ↔ r.spec.localChecks = [] ∧ r.spec.Accepted w) := by
  obtain ⟨result, w₁, w₂, hvalidate, hend, rfl⟩ := Program.trace_bind_iff.1 h
  have hlast : w₂ = [] ∧ (verdict = .allow ↔ result = .ok ()) := by
    cases result <;> obtain ⟨rfl, rfl⟩ := Program.trace_done_iff.1 hend <;> simp
  obtain ⟨rfl, hverdict⟩ := hlast
  rw [List.append_nil, hverdict]
  obtain ⟨hchecks, rfl, hresult⟩ | ⟨hchecks, hasked, hresult⟩ :=
    Spec.cases_of_trace_validate hvalidate
  · exact ⟨.inl rfl, by simp [hchecks, hresult]⟩
  · exact ⟨hasked.imp_right fun h => ⟨hchecks, h⟩, by simp [hchecks, hresult]⟩

/-- What is asked for a verdict, and which verdict follows. -/
theorem Request.verdict_of_trace (h : q.verdict.Trace w verdict) :
    w.length ≤ 1 ∧ (∀ x ∈ w, q.Asks x) ∧ (verdict = .allow ↔ q.Exempt ∨ q.Accepted w) := by
  obtain ⟨hexempt, rfl, rfl⟩ | ⟨hexempt, hobject, rfl, hverdict⟩ |
      ⟨hexempt, r, hobject, hvalidated⟩ := cases_of_trace_verdict h
  · simp [hexempt]
  · simp [hexempt, hverdict, Accepted, hobject]
  · obtain ⟨hasked, hverdict⟩ := cases_of_trace_validated hvalidated
    refine ⟨?_, ?_, by simp [hexempt, hverdict, Accepted, hobject]⟩
    · obtain rfl | ⟨-, request, reply, rfl, -⟩ := hasked <;> simp
    · obtain rfl | ⟨hchecks, request, reply, rfl, hasks⟩ := hasked
      · simp
      · exact List.forall_mem_singleton.2 ⟨hexempt, r, request, reply, hobject, hchecks, hasks, rfl⟩

/-! ## Deliveries -/

/-- What the exchanges and the outcome of a delivery keep to. -/
structure Delivery.FailsClosed (d : Delivery) (w : List (Exchange Wire.Reply))
    (result : Except Nat Answer) : Prop where
  /-- An operation is allowed exactly if it needs no validation or was validated. -/
  allowed : ∀ a, result = .ok a → (a.allowed = true ↔ ∃ review q, d.review = .ok review ∧
    review.request = some q ∧ (q.Exempt ∨ q.Accepted w))
  /-- An answer to a question is the answer to that question. -/
  uid : ∀ a review q, result = .ok a → d.review = .ok review → review.request = some q →
    a.uid = q.uid
  /-- What is refused tells of an error, and no cluster is asked for it. -/
  refused : ∀ status, result = .error status → Http.isError status = true ∧ w = []
  /-- At most one request is sent. -/
  one_request : w.length ≤ 1
  /-- A cluster is asked only about what has to be validated and is in order by itself. -/
  asked : ∀ x ∈ w, ∃ review q, d.review = .ok review ∧ review.request = some q ∧ q.Asks x

variable {d : Delivery}

theorem Delivery.isError_of_review {status : Nat} (h : d.review = .error status) :
    Http.isError status = true := by
  unfold review at h
  split at h
  · cases h
    rfl
  · split at h
    · cases h
      rfl
    · split at h
      · cases h
        rfl
      · split at h
        · cases h
        · next fault _ =>
          cases h
          cases fault.kind <;> rfl

/-- Whatever is delivered and whatever is answered, nothing is allowed but what needs no
validation or was validated. -/
theorem Delivery.failsClosed_of_trace {result : Except Nat Answer}
    (h : d.answer.Trace w result) : d.FailsClosed w result := by
  simp only [answer] at h
  split at h
  · next status hreview =>
    obtain ⟨rfl, rfl⟩ := Program.trace_done_iff.1 h
    constructor <;> simp [isError_of_review hreview]
  · next review hreview =>
    obtain ⟨a, w₁, w₂, hanswer, hend, rfl⟩ := Program.trace_bind_iff.1 h
    obtain ⟨rfl, rfl⟩ := Program.trace_done_iff.1 hend
    rw [List.append_nil]
    simp only [Review.answer] at hanswer
    split at hanswer
    · next hnone =>
      obtain ⟨rfl, rfl⟩ := Program.trace_done_iff.1 hanswer
      constructor
      case uid =>
        intro a review' q ha hreview' hq
        obtain rfl := Except.ok.inj (hreview.symm.trans hreview')
        cases hnone.symm.trans hq
      all_goals simp [hreview, hnone, Answer.invalid]
    · next q hq =>
      obtain ⟨verdict, v₁, v₂, hverdict, hend, rfl⟩ := Program.trace_bind_iff.1 hanswer
      obtain ⟨rfl, rfl⟩ := Program.trace_done_iff.1 hend
      rw [List.append_nil]
      obtain ⟨hone, hasked, hallow⟩ := q.verdict_of_trace hverdict
      have hallowed : (Answer.ofVerdict review q verdict).allowed = true ↔ verdict = .allow := by
        cases verdict <;> simp [Answer.ofVerdict]
      constructor
      case uid =>
        intro a review' q' ha hreview' hq'
        obtain rfl := Except.ok.inj ha
        obtain rfl := Except.ok.inj (hreview.symm.trans hreview')
        obtain rfl := Option.some.inj (hq.symm.trans hq')
        cases verdict <;> rfl
      case one_request => exact hone
      case asked => exact fun x hx => ⟨review, q, hreview, hq, hasked x hx⟩
      all_goals simp [hreview, hq, hallowed, hallow]

/-- A cluster that finds nothing wrong with anything. -/
def acceptsAll : (q : Wire) → q.Reply
  | .cluster _ => some ⟨200, some (.ofString "\x7b\x7d")⟩
  | .api _ => .dropped ""
  | .clock => ⟨0, 0⟩

/-- A new record, about which its cluster is asked. -/
theorem Delivery.failsClosed_orders :
    let nameless (last : String) : Json :=
      .record [("group", .text ""), ("version", .text ""), (last, .text "")]
    let r : Record :=
      ⟨.empty, ⟨"http://dbz:8083", .ofList [("connector.class", "C"), ("name", "c")]⟩, none⟩
    let question : Json := .record [("uid", .text "u1"), ("kind", nameless "kind"),
      ("resource", nameless "resource"), ("operation", .text "CREATE"), ("userInfo", .record []),
      ("object", r.toJson)]
    let review : Json := .record [("apiVersion", .text "admission.k8s.io/v1"),
      ("kind", .text "AdmissionReview"), ("request", question)]
    let d : Delivery :=
      ⟨"POST", "/validate-dbc?timeout=10s", some "application/json", review.chars.map some⟩
    let run := d.answer.transcript acceptsAll
    d.answer.Trace run.1 run.2 ∧
      (run.1.length = 1 ∧
        run.2 = .ok ⟨"admission.k8s.io/v1", "AdmissionReview", "u1", true, "", "", ""⟩) ∧
      d.FailsClosed run.1 run.2 := by
  intro nameless r question review d run
  have htrace : d.answer.Trace run.1 run.2 := Program.trace_transcript acceptsAll _
  exact ⟨htrace, by decide +kernel, failsClosed_of_trace htrace⟩

end Admission

end ConnectorKeeper
