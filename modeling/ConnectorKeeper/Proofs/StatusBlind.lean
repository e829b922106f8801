import ConnectorKeeper.Proofs.Isolation
import ConnectorKeeper.Proofs.PassPairs

/-!
# Reporting influences nothing else

Two runs of the controller over one record, with the same owner and the same surroundings
(`Backdrop`).  They may differ in everything about the status: in what is stored to begin
with, in how the runtime status reads, in what time it is, and in whether a report is
applied, what is stored then and what comes back of it.

All else is the same (`Session.alike_of_alike`).  In every pass the same requests go to the
clusters and the same changes of the finalizers to the API server, up to the version that
they name, in the same order.  Every pass ends alike and the next one is due at the same
time.  In the end the same failures are counted, and the record is the same but for its
status.

Both runs can always go on (`exists_session`).
-/

namespace ConnectorKeeper

open Program (Ensures Exchanged exchanged_append_iff exchanged_cons_iff trace_ask_iff
  trace_bind_iff trace_done_iff)

/-! ## Requests up to the version -/

/-- A document without the version in its metadata. -/
def Json.unversioned (v : Json) : Json :=
  v.merge (.record [("metadata", .record [("resourceVersion", .null)])])

/-- A request without the version of the record that it was made from. -/
def Api.Request.unversioned (q : Request) : Request :=
  { q with body := q.body.map Json.unversioned }

/-- Requests to clusters name no version. -/
def Wire.unversioned : Wire → Wire
  | .api q => .api q.unversioned
  | q => q

/-- But for the version, a patch of the finalizers depends on these alone. -/
theorem Store.unversioned_finalizersPatch (r : Record) (l : List String) :
    (finalizersPatch r l).unversioned =
      .record [("metadata", .record [("finalizers", Metadata.textListJson l)])] := by
  cases hversion : r.metadata.resourceVersion with
  | none =>
    simp [finalizersPatch, hversion, Json.unversioned, Json.record, Json.optional, Json.merge,
      Json.mergeMembers, Json.members, Json.setKey, Json.valueAt, Json.eraseKey]
  | some version =>
    simp [finalizersPatch, hversion, Json.unversioned, Json.record, Json.optional, Json.merge,
      Json.mergeMembers, Json.members, Json.setKey, Json.valueAt, Json.eraseKey]

/-- The address of a request does not depend on its body. -/
theorem Api.objectRequest_body (method : Http.Method) (collection name part parameters : String)
    (body body' : Option Json) :
    objectRequest method collection name part parameters body' =
      (objectRequest method collection name part parameters body).map
        fun q => { q with body := body' } := by
  unfold objectRequest
  split
  · rfl
  · dsimp only
    cases splitTarget _ <;> rfl

namespace Store

variable {r r' : Record}

/-- Patches of records with one core go to one address. -/
theorem cases_of_patches (h : r.core = r'.core) (part : String) (body body' : Json) :
    (∃ e, patch r part body = .done (.error e) ∧ patch r' part body' = .done (.error e)) ∨
      ∃ q, q.method = .patch ∧ q.body = some body ∧
        patch r part body = .ask (.api q)
          (fun reply => .done (written (Api.judge Record.decoder reply))) ∧
        patch r' part body' = .ask (.api { q with body := some body' })
          (fun reply => .done (written (Api.judge Record.decoder reply))) := by
  have haddress : address r = address r' := Record.congr_core h fun _ => rfl
  cases hplace : address r' with
  | error e => exact .inl ⟨e, by rw [patch, haddress, hplace], by rw [patch, hplace]⟩
  | ok place =>
    obtain ⟨space, name⟩ := place
    have hbody' := Api.objectRequest_body .patch (collection space) name part "" (some body)
      (some body')
    cases hq : Api.objectRequest .patch (collection space) name part "" (some body) with
    | error e =>
      rw [hq] at hbody'
      refine .inl ⟨.api e, ?_, ?_⟩
      · simp only [patch, haddress, hplace, hq]
        rfl
      · simp only [patch, hplace, hbody']
        rfl
    | ok q =>
      rw [hq] at hbody'
      have hpatch := patch_of_request (haddress.trans hplace) hq
      have hpatch' := patch_of_request hplace hbody'
      obtain ⟨-, _, -, rfl⟩ := Api.objectRequest_eq_ok_iff.1 hq
      exact .inr ⟨_, rfl, rfl, hpatch, hpatch'⟩

namespace Change

/-- Calls from records with one core are over at once, and alike, or they send one patch,
which sets the same finalizers. -/
theorem cases_of_calls (change : Change) (h : r.core = r'.core) :
    (∃ result, change.call r = .done result ∧ change.call r' = .done result) ∨
      ∃ q q', q.unversioned = q'.unversioned ∧ change.Sends r q ∧ change.Sends r' q' := by
  have hfinalizers : r.finalizers = r'.finalizers := Record.congr_core h fun _ => rfl
  have hearly : change.early r = change.early r' :=
    Record.congr_core h fun _ => by cases change <;> rfl
  cases hr : change.early r' with
  | some result => exact .inl ⟨result, call_of_early (hearly.trans hr), call_of_early hr⟩
  | none =>
    have hcall := call_of_not_early (hearly.trans hr)
    have hcall' := call_of_not_early hr
    obtain ⟨e, hpatch, hpatch'⟩ | ⟨q, hmethod, hbody, hpatch, hpatch'⟩ :=
      cases_of_patches h "" (finalizersPatch r (change.edit r.finalizers))
        (finalizersPatch r' (change.edit r'.finalizers))
    · rw [hpatch] at hcall
      rw [hpatch'] at hcall'
      exact .inl ⟨_, hcall, hcall'⟩
    · rw [hpatch] at hcall
      rw [hpatch'] at hcall'
      refine .inr ⟨q, { q with body := some (finalizersPatch r' (change.edit r'.finalizers)) }, ?_,
        ⟨hmethod, hbody, hcall⟩, ⟨hmethod, rfl, hcall'⟩⟩
      simp [Api.Request.unversioned, hbody, unversioned_finalizersPatch, hfinalizers]

end Change

end Store

/-- Whether a question goes to a cluster. -/
def Neighbour.toCluster : Neighbour → Bool
  | .lookup .. | .readConfig .. | .readStatus .. | .create .. | .update .. | .delete .. => true
  | .addFinalizer _ | .removeFinalizer _ | .patchStatus .. | .clock => false

/-- A question to a cluster takes one request at most. -/
theorem Neighbour.cases_of_toCluster {n : Neighbour} (h : n.toCluster) :
    (∃ reply, n.overWire = .done reply) ∨
      ∃ (q : Http.Request) (f : Option Http.Response → n.Reply),
        n.overWire = .ask (.cluster q) fun response => .done (f response) := by
  have hexchange {α : Type} (host : String) (segments : List String) (method : Http.Method)
      (body : Option Json) (judge : Http.Response → Except ClusterError α) :
      (∃ reply, Connect.exchange host segments method body judge = .done reply) ∨
        ∃ (q : Http.Request) (f : Option Http.Response → Except ClusterError α),
          Connect.exchange host segments method body judge =
            .ask (.cluster q) fun response => .done (f response) := by
    obtain ⟨e, -, h⟩ | ⟨_, q, lost, -, -, -, -, -, h⟩ :=
      Connect.cases_of_exchange host segments method body judge
    · exact .inl ⟨_, h⟩
    · exact .inr ⟨q, _, h⟩
  cases n with
  | lookup | readConfig | readStatus | create | update | delete => exact hexchange ..
  | addFinalizer | removeFinalizer | patchStatus | clock => cases h

theorem Neighbour.errand_of_done {n : Neighbour} {reply : n.Reply} (h : n.overWire = .done reply) :
    n.errand = .done reply := by
  rw [errand, h]
  rfl

theorem Neighbour.errand_of_ask {n : Neighbour} {q : Wire} {f : q.Reply → n.Reply}
    (h : n.overWire = .ask q fun reply => .done (f reply)) :
    n.errand = .ask (.request n q) fun reply => .done (f reply) := by
  rw [errand, h]
  rfl

/-! ## Surroundings -/

/-- Two answers of the API server that differ at most in the status of the record in them. -/
def Api.Reply.Alike (reply reply' : Reply) : Prop :=
  reply = reply' ∨ ∃ r r', judge Record.decoder reply = .ok r ∧
    judge Record.decoder reply' = .ok r' ∧ r.core = r'.core

/-- Replies that are alike say the same about what was written. -/
theorem Api.Reply.Alike.written {reply reply' : Reply} (h : reply.Alike reply') :
    Store.written (judge Record.decoder reply) = Store.written (judge Record.decoder reply') := by
  obtain rfl | ⟨r, r', hr, hr', -⟩ := h
  · rfl
  · rw [hr, hr']
    rfl

namespace StoredRecord

variable {d d' : StoredRecord}

/-- A patch of the finalizers changes the core of a record alike, whatever its status is. -/
theorem Applies.core_of_finalizers {r : Record} {l : List String}
    (h : d.Applies (Store.finalizersPatch r l) d') :
    d'.record.core = d.record.core.withFinalizers l none := by
  obtain ⟨merged, version, generation, managed, hmerged, hd'⟩ := h
  rw [Record.decode_merge_finalizers d.reads] at hmerged
  obtain rfl := Option.some.inj hmerged
  rw [hd']
  rfl

/-- A patch of the status leaves the core. -/
theorem Applies.core_of_status {st : Status} (h : d.Applies (Store.statusPatch st) d') :
    d'.record.core = d.record.core := by
  obtain ⟨merged, version, generation, managed, hmerged, hd'⟩ := h
  rw [Record.decode_merge_status d.reads] at hmerged
  obtain rfl := Option.some.inj hmerged
  rw [hd']
  rfl

/-- A report is applied or not, and then any status is put in the place of the stored one. -/
def TakesReport (d : StoredRecord) (q : Api.Request) (d' : StoredRecord) : Prop :=
  ∃ applied : StoredRecord, d'.record.core = applied.record.core ∧
    (applied = d ∨ ∃ patch, q.body = some patch ∧ d.Applies patch applied)

end StoredRecord

/-- What the API server makes of a patch of the finalizers. -/
structure Verdict where
  /-- Its answer. -/
  reply : Api.Reply
  /-- Whether it applies the patch. -/
  applied : Bool

/-- All else: its state is one of `E`. -/
structure Backdrop (E : Type) where
  /-- How the clusters answer. -/
  cluster : E → Http.Request → Option Http.Response × E
  /-- What the API server makes of a patch of the finalizers, whatever version it names. -/
  finalizers : E → Api.Request → Verdict × E

/-- The record as it is stored, the controller, and all else. -/
structure Stage (E : Type) where
  /-- The document of the record. -/
  stored : StoredRecord
  /-- The controller. -/
  controller : Controller
  /-- All else. -/
  elsewhere : E

namespace Backdrop

variable {E : Type}

/-- A patch of the finalizers is answered, and leaves a document. -/
structure Decides (b : Backdrop E) (s : Stage E) (q : Api.Request) (reply : Api.Reply)
    (d : StoredRecord) : Prop where
  /-- The answer is that of the API server. -/
  reply : reply.Alike (b.finalizers s.elsewhere q.unversioned).1.reply
  /-- Where the API server applies the patch, it is merged. -/
  applied : (b.finalizers s.elsewhere q.unversioned).1.applied = true →
    ∃ patch, q.body = some patch ∧ s.stored.Applies patch d
  /-- Where it does not, the document stays. -/
  refused : (b.finalizers s.elsewhere q.unversioned).1.applied = false → d = s.stored

/-- What may come of an errand.  The runtime status reads as anything, and so does the clock.
A report is answered in any way. -/
inductive Answers (b : Backdrop E) (settings : ControllerSettings) :
    Stage E → (e : Errand) → e.Reply → Stage E → Prop
  | managed {s : Stage E} {n : Neighbour} {q : Http.Request} (hn : n.manages = true) :
      Answers b settings s (.request n (.cluster q)) (b.cluster s.elsewhere q).1
        { s with elsewhere := (b.cluster s.elsewhere q).2 }
  | observed {s : Stage E} {host name : String} {q : Http.Request}
      (response : Option Http.Response) :
      Answers b settings s (.request (.readStatus host name) (.cluster q)) response
        { s with elsewhere := (b.cluster s.elsewhere q).2 }
  | decided {s : Stage E} {n : Neighbour} {q : Api.Request} {reply : Api.Reply} {d : StoredRecord}
      (hn : n.guards = true) (h : b.Decides s q reply d) :
      Answers b settings s (.request n (.api q)) reply
        { s with stored := d, elsewhere := (b.finalizers s.elsewhere q.unversioned).2 }
  | reported {s : Stage E} {r : Record} {st : Status} {q : Api.Request} {d : StoredRecord}
      (reply : Api.Reply) (h : s.stored.TakesReport q d) :
      Answers b settings s (.request (.patchStatus r st) (.api q)) reply { s with stored := d }
  | timed {s : Stage E} (now : Timestamp) : Answers b settings s (.request .clock .clock) now s
  | concluded {s : Stage E} {r : Record} {result : Except PassError Outcome} (elapsed : Duration) :
      Answers b settings s (.conclude r result) ()
        { s with controller := s.controller.recordPass r result elapsed }
  | heeded {s : Stage E} {r : Record} {e : PassError} :
      Answers b settings s (.heed r e) (s.controller.heed settings.backoff r e).2
        { s with controller := (s.controller.heed settings.backoff r e).1 }

end Backdrop

/-- What an errand sends, unless it is for a report. -/
def Errand.shown? : Errand → Option Wire
  | .request n q => if n.reports then none else some q.unversioned
  | .conclude .. | .heed .. => none

/-! ## Runs -/

section Runs

variable {E α β : Type} {b : Backdrop E} {settings : ControllerSettings} {s s' : Stage E}
  {l : List Wire}

/-- A run of a program, and what it sends. -/
def Backdrop.Runs (b : Backdrop E) (settings : ControllerSettings)
    (p : Program Errand Errand.Reply α) (s : Stage E) (l : List Wire) (a : α) (s' : Stage E) :
    Prop :=
  ∃ w, p.Trace w a ∧ Exchanged (b.Answers settings) s w s' ∧ l = w.filterMap fun x => x.1.shown?

theorem runs_done_iff {a a' : α} :
    b.Runs settings (.done a) s l a' s' ↔ l = [] ∧ a' = a ∧ s' = s := by
  constructor
  · rintro ⟨w, htrace, hw, rfl⟩
    obtain ⟨rfl, rfl⟩ := trace_done_iff.1 htrace
    cases hw with
    | nil => exact ⟨rfl, rfl, rfl⟩
  · rintro ⟨rfl, rfl, rfl⟩
    exact ⟨[], .done _, .nil _, rfl⟩

theorem runs_ask_iff {e : Errand} {next : e.Reply → Program Errand Errand.Reply α} {a : α} :
    b.Runs settings (.ask e next) s l a s' ↔ ∃ reply s₁ l₁, b.Answers settings s e reply s₁ ∧
      b.Runs settings (next reply) s₁ l₁ a s' ∧ l = e.shown?.toList ++ l₁ := by
  constructor
  · rintro ⟨w, htrace, hw, rfl⟩
    obtain ⟨reply, w', rfl, hrest⟩ := trace_ask_iff.1 htrace
    obtain ⟨s₁, hreply, hw'⟩ := exchanged_cons_iff.1 hw
    refine ⟨reply, s₁, _, hreply, ⟨w', hrest, hw', rfl⟩, ?_⟩
    cases hshown : e.shown? <;> simp [hshown]
  · rintro ⟨reply, s₁, _, hreply, ⟨w, hrest, hw, rfl⟩, rfl⟩
    refine ⟨_, .ask reply hrest, .cons hreply hw, ?_⟩
    cases hshown : e.shown? <;> simp [hshown]

/-- A run of one program after another is one of each. -/
theorem runs_bind_iff {p : Program Errand Errand.Reply α}
    {f : α → Program Errand Errand.Reply β} {c : β} :
    b.Runs settings (p >>= f) s l c s' ↔ ∃ a s₁ l₁ l₂, b.Runs settings p s l₁ a s₁ ∧
      b.Runs settings (f a) s₁ l₂ c s' ∧ l = l₁ ++ l₂ := by
  constructor
  · rintro ⟨w, htrace, hw, rfl⟩
    obtain ⟨a, w₁, w₂, hp, hf, rfl⟩ := trace_bind_iff.1 htrace
    obtain ⟨s₁, hw₁, hw₂⟩ := exchanged_append_iff.1 hw
    exact ⟨a, s₁, _, _, ⟨w₁, hp, hw₁, rfl⟩, ⟨w₂, hf, hw₂, rfl⟩, List.filterMap_append ..⟩
  · rintro ⟨a, s₁, _, _, ⟨w₁, hp, hw₁, rfl⟩, ⟨w₂, hf, hw₂, rfl⟩, rfl⟩
    exact ⟨w₁ ++ w₂, trace_bind_iff.2 ⟨a, w₁, w₂, hp, hf, rfl⟩,
      exchanged_append_iff.2 ⟨s₁, hw₁, hw₂⟩, (List.filterMap_append ..).symm⟩

end Runs

/-! ## Stages that differ in the status -/

/-- Stages that differ in the status of the record, in what the API server writes itself, and in
the time that passes took. -/
structure Stage.Alike {E : Type} (s u : Stage E) : Prop where
  /-- The record is the same, but for these. -/
  core : s.stored.record.core = u.stored.record.core
  /-- The failures in a row are the same. -/
  failures : s.controller.failures = u.controller.failures
  /-- The counts of passes are the same. -/
  counters : s.controller.metrics.counters = u.controller.metrics.counters
  /-- All else is the same. -/
  elsewhere : s.elsewhere = u.elsewhere

namespace Stage.Alike

variable {E : Type} {s t u : Stage E}

theorem symm (h : s.Alike t) : t.Alike s :=
  ⟨h.core.symm, h.failures.symm, h.counters.symm, h.elsewhere.symm⟩

theorem trans (h : s.Alike t) (h' : t.Alike u) : s.Alike u :=
  ⟨h.core.trans h'.core, h.failures.trans h'.failures, h.counters.trans h'.counters,
    h.elsewhere.trans h'.elsewhere⟩

/-- A record with the same core makes no difference. -/
theorem store (s : Stage E) {d : StoredRecord} (h : d.record.core = s.stored.record.core) :
    s.Alike { s with stored := d } := ⟨h.symm, rfl, rfl, rfl⟩

/-- Edits of the core, made alike, keep stages alike. -/
theorem beside {d d' : StoredRecord} {edit : Record → Record} (h : s.Alike u)
    (hd : d.record.core = edit s.stored.record.core)
    (hd' : d'.record.core = edit u.stored.record.core) (change : E → E) :
    Alike { s with stored := d, elsewhere := change s.elsewhere }
      { u with stored := d', elsewhere := change u.elsewhere } :=
  ⟨by rw [hd, hd', h.core], h.failures, h.counters, congrArg change h.elsewhere⟩

end Stage.Alike

/-- Whenever two programs run on stages that are alike, they send the same and leave stages that
are alike, with results as demanded. -/
def Together {E α β : Type} (b : Backdrop E) (settings : ControllerSettings) (R : α → β → Prop)
    (p : Program Errand Errand.Reply α) (p' : Program Errand Errand.Reply β) : Prop :=
  ∀ ⦃s u s' u' l l' a a'⦄, s.Alike u → b.Runs settings p s l a s' →
    b.Runs settings p' u l' a' u' → l = l' ∧ R a a' ∧ s'.Alike u'

namespace Together

variable {E α α' β β' : Type} {b : Backdrop E} {settings : ControllerSettings}
  {R : α → β → Prop} {Q : α' → β' → Prop}

theorem done {a : α} {a' : β} (h : R a a') : Together b settings R (.done a) (.done a') := by
  intro s u s' u' l l' _ _ halike hrun hrun'
  obtain ⟨rfl, rfl, rfl⟩ := runs_done_iff.1 hrun
  obtain ⟨rfl, rfl, rfl⟩ := runs_done_iff.1 hrun'
  exact ⟨rfl, h, halike⟩

theorem ask {e e' : Errand} {next : e.Reply → Program Errand Errand.Reply α}
    {next' : e'.Reply → Program Errand Errand.Reply β} (hshown : e.shown? = e'.shown?)
    (h : ∀ s u s' u' reply reply', s.Alike u → b.Answers settings s e reply s' →
      b.Answers settings u e' reply' u' →
        s'.Alike u' ∧ Together b settings R (next reply) (next' reply')) :
    Together b settings R (.ask e next) (.ask e' next') := by
  intro s u s' u' l l' a a' halike hrun hrun'
  obtain ⟨reply, s₁, l₁, hreply, hrest, rfl⟩ := runs_ask_iff.1 hrun
  obtain ⟨reply', u₁, l₁', hreply', hrest', rfl⟩ := runs_ask_iff.1 hrun'
  obtain ⟨halike, hnext⟩ := h s u s₁ u₁ reply reply' halike hreply hreply'
  obtain ⟨rfl, hend⟩ := hnext halike hrest hrest'
  exact ⟨by rw [hshown], hend⟩

theorem bind {p : Program Errand Errand.Reply α} {p' : Program Errand Errand.Reply β}
    {f : α → Program Errand Errand.Reply α'} {f' : β → Program Errand Errand.Reply β'}
    (h : Together b settings R p p') (hf : ∀ a a', R a a' → Together b settings Q (f a) (f' a')) :
    Together b settings Q (p >>= f) (p' >>= f') := by
  intro s u s' u' l l' c c' halike hrun hrun'
  obtain ⟨a, s₁, l₁, l₂, hp, hrest, rfl⟩ := runs_bind_iff.1 hrun
  obtain ⟨a', u₁, l₁', l₂', hp', hrest', rfl⟩ := runs_bind_iff.1 hrun'
  obtain ⟨rfl, hresult, halike⟩ := h halike hp hp'
  obtain ⟨rfl, hend⟩ := hf a a' hresult halike hrest hrest'
  exact ⟨rfl, hend⟩

/-- What manages connectors is answered alike. -/
theorem manages {n : Neighbour} (hn : n.manages = true) :
    Together b settings Eq n.errand n.errand := by
  have hcluster : n.toCluster := by cases n <;> first | rfl | cases hn
  obtain ⟨reply, h⟩ | ⟨q, f, h⟩ := n.cases_of_toCluster hcluster
  · rw [n.errand_of_done h]
    exact .done rfl
  · rw [n.errand_of_ask h]
    refine .ask rfl ?_
    intro s u s' u' reply reply' halike hreply hreply'
    cases hreply with
    | managed =>
      cases hreply' with
      | managed =>
        rw [halike.elsewhere]
        exact ⟨⟨halike.core, halike.failures, halike.counters, rfl⟩, .done rfl⟩
      | observed => cases hn
    | observed => cases hn

/-- The runtime status may read as anything. -/
theorem readStatus (host name : String) : Together b settings (fun _ _ => True)
    (Neighbour.readStatus host name).errand (Neighbour.readStatus host name).errand := by
  obtain ⟨reply, h⟩ | ⟨q, f, h⟩ := (Neighbour.readStatus host name).cases_of_toCluster rfl
  · rw [Neighbour.errand_of_done h]
    exact .done trivial
  · rw [Neighbour.errand_of_ask h]
    refine .ask rfl ?_
    intro s u s' u' reply reply' halike hreply hreply'
    cases hreply with
    | managed hn => cases hn
    | observed =>
      cases hreply' with
      | managed hn => cases hn
      | observed =>
        rw [halike.elsewhere]
        exact ⟨⟨halike.core, halike.failures, halike.counters, rfl⟩, .done trivial⟩

section Finalizers

variable {r r' : Record} {s u : Stage E} {q q' : Api.Request} {reply reply' : Api.Reply}
  {d d' : StoredRecord} {change : Store.Change}

/-- Patches that set the same finalizers leave the same, applied or not. -/
theorem core_of_decides (halike : s.Alike u) (hcore : r.core = r'.core)
    (hunversioned : q.unversioned = q'.unversioned) (hq : change.Sends r q)
    (hq' : change.Sends r' q') (h : b.Decides s q reply d) (h' : b.Decides u q' reply' d') :
    d.record.core = d'.record.core := by
  have hfinalizers : r.finalizers = r'.finalizers := Record.congr_core hcore fun _ => rfl
  have hverdict : b.finalizers s.elsewhere q.unversioned =
      b.finalizers u.elsewhere q'.unversioned := by
    rw [halike.elsewhere, hunversioned]
  cases hdecided : (b.finalizers u.elsewhere q'.unversioned).1.applied with
  | true =>
    obtain ⟨patch, hbody, happlies⟩ := h.applied (by rw [hverdict, hdecided])
    obtain ⟨patch', hbody', happlies'⟩ := h'.applied hdecided
    obtain rfl := Option.some.inj (hq.body.symm.trans hbody)
    obtain rfl := Option.some.inj (hq'.body.symm.trans hbody')
    rw [happlies.core_of_finalizers, happlies'.core_of_finalizers, halike.core, hfinalizers]
  | false =>
    rw [h.refused (by rw [hverdict, hdecided]), h'.refused hdecided, halike.core]

/-- Changes of the finalizers go together for records with the same core. -/
theorem guards (change : Store.Change) {n n' : Neighbour} (hn : n.guards = true)
    (hn' : n'.guards = true) (hcore : r.core = r'.core) : Together b settings Eq
      ((change.call r).run fun q => Program.question (Errand.request n q))
      ((change.call r').run fun q => Program.question (Errand.request n' q)) := by
  obtain ⟨result, h, h'⟩ | ⟨q, q', hunversioned, hq, hq'⟩ := change.cases_of_calls hcore
  · rw [h, h']
    exact .done rfl
  · rw [hq.call, hq'.call]
    refine .ask ?_ ?_
    · have hshown {n : Neighbour} (hn : n.guards = true) : n.reports = false := by
        cases n <;> first | rfl | cases hn
      simp [Errand.shown?, hshown hn, hshown hn', Wire.unversioned, hunversioned]
    · intro s u s' u' reply reply' halike hreply hreply'
      cases hreply with
      | reported => cases hn
      | decided _ h =>
        cases hreply' with
        | reported => cases hn'
        | decided _ h' =>
          refine ⟨⟨core_of_decides halike hcore hunversioned hq hq' h h', halike.failures,
            halike.counters, ?_⟩, .done ?_⟩
          · rw [halike.elsewhere, hunversioned]
          · have hreply := h.reply.written
            rw [halike.elsewhere, hunversioned] at hreply
            rw [hreply, h'.reply.written]

end Finalizers

end Together

/-! ## Passes -/

section Pass

variable {E α β : Type} {b : Backdrop E} {settings : ControllerSettings} {s s' : Stage E}
  {l : List Wire}

theorem StoredRecord.TakesReport.core {d d' : StoredRecord} {q : Api.Request} {st : Status}
    (hbody : q.body = some (Store.statusPatch st)) (h : d.TakesReport q d') :
    d'.record.core = d.record.core := by
  obtain ⟨applied, hcore, rfl | ⟨patch, hpatch, happlies⟩⟩ := h
  · exact hcore
  · obtain rfl := Option.some.inj (hbody.symm.trans hpatch)
    exact hcore.trans happlies.core_of_status

/-- A part of a report sends nothing that is shown, and leaves a stage that is alike. -/
theorem runs_reports {n : Neighbour} (hn : n.reports = true) {reply : n.Reply}
    (h : b.Runs settings n.errand s l reply s') : l = [] ∧ s.Alike s' := by
  cases n with
  | clock =>
    obtain ⟨now, s₁, l₁, hnow, hend, rfl⟩ := runs_ask_iff.1 h
    obtain ⟨rfl, -, rfl⟩ := runs_done_iff.1 hend
    cases hnow with
    | timed => exact ⟨rfl, rfl, rfl, rfl, rfl⟩
  | patchStatus r st =>
    obtain ⟨e, -, hpatch⟩ | ⟨q, -, -, hbody, hpatch⟩ :=
      Store.cases_of_patch r "/status" (Store.statusPatch st)
    · rw [Neighbour.errand_of_done (n := .patchStatus r st) hpatch] at h
      obtain ⟨rfl, -, rfl⟩ := runs_done_iff.1 h
      exact ⟨rfl, rfl, rfl, rfl, rfl⟩
    · rw [Neighbour.errand_of_ask (n := .patchStatus r st) hpatch] at h
      obtain ⟨reply, s₁, l₁, hreply, hend, rfl⟩ := runs_ask_iff.1 h
      obtain ⟨rfl, -, rfl⟩ := runs_done_iff.1 hend
      cases hreply with
      | decided hn => cases hn
      | reported _ htakes => exact ⟨rfl, .store s (htakes.core hbody)⟩
  | lookup | readConfig | readStatus | create | update | delete | addFinalizer
  | removeFinalizer => cases hn

/-- Work that goes in step runs together. -/
theorem InStep.together {R : α → β → Prop} {p : Work α} {p' : Work β} (h : InStep R p p') :
    Together b settings R (p.run Neighbour.errand) (p'.run Neighbour.errand) := by
  induction h with
  | done h => exact .done h
  | same hn _ ih =>
    refine (Together.manages hn).bind ?_
    rintro reply _ rfl
    exact ih reply
  | readStatus _ ih => exact (Together.readStatus ..).bind fun reply reply' _ => ih reply reply'
  | addFinalizer hcore _ ih =>
    refine (Together.guards .add rfl rfl hcore).bind ?_
    rintro reply _ rfl
    exact ih reply
  | removeFinalizer hcore _ ih =>
    refine (Together.guards .remove rfl rfl hcore).bind ?_
    rintro reply _ rfl
    exact ih reply
  -- only one of the two reports, and its stage stays like that of the other one, which waits
  | left hn _ ih =>
    intro s u s' u' l l' a a' halike hrun hrun'
    obtain ⟨reply, s₁, l₁, l₂, hreport, hrest, rfl⟩ := runs_bind_iff.1 hrun
    obtain ⟨rfl, hsame⟩ := runs_reports hn hreport
    exact ih reply (hsame.symm.trans halike) hrest hrun'
  | right hn _ ih =>
    intro s u s' u' l l' a a' halike hrun hrun'
    obtain ⟨reply, u₁, l₁, l₂, hreport, hrest, rfl⟩ := runs_bind_iff.1 hrun'
    obtain ⟨rfl, hsame⟩ := runs_reports hn hreport
    exact ih reply (halike.trans hsame) hrun hrest

/-! ### What the controller does after a pass -/

/-- What follows a pass goes together, as its key is the same. -/
theorem settle_together {r r' : Record} (hcore : r.core = r'.core)
    (result : Except PassError Outcome) :
    Together b settings Eq (settle r result) (settle r' result) := by
  have hkey : r.key = r'.key := Record.congr_core hcore fun _ => rfl
  refine .ask rfl ?_
  intro s u s' u' _ _ halike hreply hreply'
  cases hreply with
  | concluded elapsed =>
    cases hreply' with
    | concluded elapsed' =>
      have hcounters : (s.controller.recordPass r result elapsed).metrics.counters =
          (u.controller.recordPass r' result elapsed').metrics.counters := by
        rw [Controller.counters_recordPass, Controller.counters_recordPass, halike.counters]
        cases result <;> rfl
      cases result with
      | ok outcome =>
        refine ⟨⟨halike.core, ?_, hcounters, halike.elsewhere⟩, .done rfl⟩
        simp only [Controller.recordPass, halike.failures, hkey]
      | error e =>
        refine ⟨⟨halike.core, halike.failures, hcounters, halike.elsewhere⟩, .ask rfl ?_⟩
        intro s u s' u' _ _ halike hheed hheed'
        cases hheed with
        | heeded =>
          cases hheed' with
          | heeded =>
            simp only [Controller.heed, halike.failures, hkey]
            exact ⟨⟨halike.core, rfl, halike.counters, halike.elsewhere⟩, .done rfl⟩

/-- So does a pass with what follows it. -/
theorem supervised_together {r r' : Record} (hcore : r.core = r'.core) :
    Together b settings Eq (supervised settings r) (supervised settings r') := by
  refine (pass_inStep hcore settings.resync).together.bind ?_
  rintro result _ rfl
  exact settle_together hcore result

end Pass

/-! ## Sessions -/

/-- What happens next to a record. -/
inductive Turn (E : Type) where
  /-- A pass over it. -/
  | pass
  /-- It is edited, but for its status, and all else changes. -/
  | beside (edit : Record → Record) (change : E → E)

/-- The edit is possible, whatever is stored. -/
def Turn.Possible {E : Type} : Turn E → Prop
  | .pass => True
  | .beside edit _ => ∀ d : StoredRecord, ∃ d' : StoredRecord, d'.record.core = edit d.record.core

/-- What is seen of a pass. -/
structure Account where
  /-- What it sends, but for reports. -/
  sent : List Wire
  /-- How it ends. -/
  result : Except PassError Outcome
  /-- When the next one is due. -/
  requeue : Requeue

/-- Passes and other changes, one after the other. -/
inductive Session {E : Type} (b : Backdrop E) (settings : ControllerSettings) :
    Stage E → List (Turn E) → List Account → Stage E → Prop
  | nil (s : Stage E) : Session b settings s [] [] s
  | pass {s s₁ s' : Stage E} {l : List Wire} {result : Except PassError Outcome}
      {requeue : Requeue} {turns : List (Turn E)} {accounts : List Account}
      (hpass : b.Runs settings (supervised settings s.stored.record) s l (result, requeue) s₁)
      (hrest : Session b settings s₁ turns accounts s') :
      Session b settings s (.pass :: turns) (⟨l, result, requeue⟩ :: accounts) s'
  | beside {s s' : Stage E} {d : StoredRecord} {edit : Record → Record} {change : E → E}
      {turns : List (Turn E)} {accounts : List Account}
      (hd : d.record.core = edit s.stored.record.core)
      (hrest : Session b settings { s with stored := d, elsewhere := change s.elsewhere } turns
        accounts s') :
      Session b settings s (.beside edit change :: turns) accounts s'

namespace Session

variable {E : Type} {b : Backdrop E} {settings : ControllerSettings} {turns : List (Turn E)}
  {s u s' u' : Stage E} {accounts accounts' : List Account}

/-! ### Both can go on -/

/-- A change of the finalizers always gets an answer. -/
theorem exists_decided (s : Stage E) {n : Neighbour} (hn : n.guards = true) {q : Api.Request}
    {r : Record} {l : List String} (hbody : q.body = some (Store.finalizersPatch r l)) :
    ∃ reply s', b.Answers settings s (.request n (.api q)) reply s' := by
  cases hdecided : (b.finalizers s.elsewhere q.unversioned).1.applied with
  | true =>
    obtain ⟨d, hd⟩ := s.stored.exists_applies_finalizers r l
    refine ⟨_, _, .decided hn ⟨.inl rfl, fun _ => ⟨_, hbody, hd⟩, fun hrefused => ?_⟩⟩
    cases hdecided.symm.trans hrefused
  | false =>
    refine ⟨_, _, .decided hn ⟨.inl rfl, fun happlied => ?_, fun _ => rfl⟩⟩
    cases hdecided.symm.trans happlied

/-- So does every question of a pass. -/
theorem ensures_errand (s : Stage E) (n : Neighbour) :
    n.errand.Ensures (b.Answers settings) s fun _ _ _ => True := by
  have hdone {reply : n.Reply} (h : n.overWire = .done reply) :
      n.errand.Ensures (b.Answers settings) s fun _ _ _ => True := by
    rw [n.errand_of_done h]
    trivial
  have hask {q : Wire} {f : q.Reply → n.Reply} (h : n.overWire = .ask q fun a => .done (f a))
      (hreply : ∃ reply s', b.Answers settings s (.request n q) reply s') :
      n.errand.Ensures (b.Answers settings) s fun _ _ _ => True := by
    rw [n.errand_of_ask h]
    exact ⟨hreply, fun _ _ _ => trivial⟩
  have hcluster (hn : n.toCluster) (hreply : ∀ q, ∃ reply s',
      b.Answers settings s (.request n (.cluster q)) reply s') :
      n.errand.Ensures (b.Answers settings) s fun _ _ _ => True := by
    obtain ⟨reply, h⟩ | ⟨q, f, h⟩ := n.cases_of_toCluster hn
    · exact hdone h
    · exact hask h (hreply q)
  cases n with
  | lookup | readConfig | create | update | delete =>
    exact hcluster rfl fun q => ⟨_, _, .managed rfl⟩
  | readStatus => exact hcluster rfl fun q => ⟨none, _, .observed none⟩
  | addFinalizer r =>
    obtain ⟨result, h⟩ | ⟨q, hsends⟩ := Store.Change.add.cases_of_call r
    · exact hdone h
    · exact hask hsends.call (exists_decided s rfl hsends.body)
  | removeFinalizer r =>
    obtain ⟨result, h⟩ | ⟨q, hsends⟩ := Store.Change.remove.cases_of_call r
    · exact hdone h
    · exact hask hsends.call (exists_decided s rfl hsends.body)
  | patchStatus r st =>
    obtain ⟨e, -, h⟩ | ⟨q, -, -, -, h⟩ := Store.cases_of_patch r "/status" (Store.statusPatch st)
    · exact hdone h
    · exact hask h ⟨.dropped "", _, .reported _ ⟨s.stored, rfl, .inl rfl⟩⟩
  | clock => exact hask rfl ⟨⟨0, 0⟩, s, .timed _⟩

theorem ensures_work {α : Type} (s : Stage E) (p : Work α) :
    (p.run Neighbour.errand).Ensures (b.Answers settings) s fun _ _ _ => True := by
  induction p generalizing s with
  | done => trivial
  | ask n next ih =>
    refine Program.ensures_bind_iff.2 ((ensures_errand s n).mono ?_)
    intro _ s' reply _
    exact ih reply s'

/-- A supervised pass never waits for ever. -/
theorem ensures_supervised (s : Stage E) (r : Record) :
    (supervised settings r).Ensures (b.Answers settings) s fun _ _ _ => True := by
  refine Program.ensures_bind_iff.2 ((ensures_work s _).mono ?_)
  intro _ s' result _
  refine ⟨⟨(), _, .concluded (.ofSeconds 0)⟩, fun _ s'' _ => ?_⟩
  cases result with
  | ok => trivial
  | error => exact ⟨⟨_, _, .heeded⟩, fun _ _ _ => trivial⟩

/-- Turns that are possible can be taken in a session. -/
theorem exists_session (h : ∀ turn ∈ turns, turn.Possible) (s : Stage E) :
    ∃ accounts s', Session b settings s turns accounts s' := by
  induction turns generalizing s with
  | nil => exact ⟨[], s, .nil s⟩
  | cons turn turns ih =>
    obtain ⟨hturn, hturns⟩ := List.forall_mem_cons.1 h
    cases turn with
    | pass =>
      have hrun : (supervised settings s.stored.record).Ensures (b.Answers settings) s
          fun _ _ _ => True := ensures_supervised s _
      obtain ⟨w, s₁, ⟨result, requeue⟩, htrace, hw, -⟩ := hrun.exists_run
      obtain ⟨accounts, s', hrest⟩ := ih hturns s₁
      exact ⟨_, s', .pass ⟨w, htrace, hw, rfl⟩ hrest⟩
    | beside edit change =>
      obtain ⟨d, hd⟩ := hturn s.stored
      obtain ⟨accounts, s', hrest⟩ := ih hturns _
      exact ⟨accounts, s', .beside hd hrest⟩

/-- Sessions that start from stages that differ in the status are seen alike, and end so. -/
theorem alike_of_alike (halike : s.Alike u) (h : Session b settings s turns accounts s')
    (h' : Session b settings u turns accounts' u') : accounts = accounts' ∧ s'.Alike u' := by
  induction h generalizing u accounts' with
  | nil =>
    cases h' with
    | nil => exact ⟨rfl, halike⟩
  | pass hpass _ ih =>
    cases h' with
    | pass hpass' hrest' =>
      obtain ⟨rfl, hend, halike⟩ := supervised_together halike.core halike hpass hpass'
      obtain ⟨rfl, rfl⟩ := Prod.mk.inj hend
      obtain ⟨rfl, halike⟩ := ih halike hrest'
      exact ⟨rfl, halike⟩
  | beside hd _ ih =>
    cases h' with
    | beside hd' hrest' => exact ih (halike.beside hd hd' _) hrest'

end Session

/-- The document with the status replaced. -/
def StoredRecord.reporting (d : StoredRecord) (st : Status) : StoredRecord where
  members := ((Json.object d.members).merge (Store.statusPatch st)).members
  record := d.record.withStatus st
  reads := Record.decode_merge_status d.reads st

/-- A cluster where every connector runs without a configuration, and an API server that applies
the patches of the finalizers and is not heard. -/
def Backdrop.bare : Backdrop Unit where
  cluster _ _ := (some ⟨200, some (.ofString "\x7b\x7d")⟩, ())
  finalizers _ _ := (⟨.dropped "", true⟩, ())

/-- A record that is not adopted and then is, with two statuses to begin with. -/
theorem Session.alike_of_alike_orders :
    let edit (r : Record) := r.withFinalizers ["keep", finalizer] none
    let turns : List (Turn Unit) := [.pass, .beside edit id, .pass]
    let s : Stage Unit := ⟨.orders, .initial, ()⟩
    let u : Stage Unit := ⟨StoredRecord.orders.reporting ⟨.running, []⟩, .initial, ()⟩
    s.stored.record.status ≠ u.stored.record.status ∧ s.Alike u ∧
      ∃ accounts accounts' s' u', Session .bare {} s turns accounts s' ∧
        Session .bare {} u turns accounts' u' ∧ accounts = accounts' ∧ s'.Alike u' := by
  intro edit turns s u
  have hpossible : ∀ turn ∈ turns, turn.Possible := by
    refine List.forall_mem_cons.2 ⟨trivial, List.forall_mem_cons.2 ⟨fun d => ?_, ?_⟩⟩
    · exact ⟨d.edited ["keep", finalizer] "1", rfl⟩
    · exact List.forall_mem_singleton.2 trivial
  have halike : s.Alike u := ⟨rfl, rfl, rfl, rfl⟩
  obtain ⟨accounts, s', h⟩ : ∃ accounts s', Session .bare {} s turns accounts s' :=
    exists_session hpossible s
  obtain ⟨accounts', u', h'⟩ : ∃ accounts u', Session .bare {} u turns accounts u' :=
    exists_session hpossible u
  exact ⟨by decide, halike, accounts, accounts', s', u', h, h', alike_of_alike halike h h'⟩

end ConnectorKeeper
