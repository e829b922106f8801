import ConnectorKeeper.Proofs.PassWalk

/-!
# The request protocol of a pass

What a pass sends, in which order and after which answers, whatever the answers
are (`Record.Protocol`).  A cluster is changed at most once, and only after the
answers that call for it; the finalizer is there before a cluster is asked at all,
and goes last; the status is written last of all, and only about a connector that
is known to have its configuration.

Every question of a run may be asked after the exchanges before it, so each clause
is read off what may be asked (`Record.MaySend`).
-/

namespace ConnectorKeeper

open Program (Exchange)

/-- The word for a question: the method of a request. -/
def Wire.word : Wire → String
  | .cluster q => q.method.name
  | .api q => q.method.name
  | .clock => "time"

namespace Record

/-- What the exchanges of a pass over a record keep to. -/
structure Protocol (r : Record) (w : List (Exchange Wire.Reply))
    (result : Except PassError Outcome) : Prop where
  /-- The API server is asked for three kinds of changes only. -/
  patches : ∀ q reply, Wire.ofApi q reply ∈ w → (Wire.api q).AddsFinalizer ∨
    (Wire.api q).RemovesFinalizer ∨ (Wire.api q).SetsStatus
  /-- A cluster is changed at most once. -/
  one_change : w.countP (·.1.changesCluster) ≤ 1
  /-- A connector is created as the record says, after a lookup that did not find it. -/
  post : ∀ before q reply after, w = before ++ Wire.ofCluster q reply :: after →
    q.method = .post → q.body = some (Connect.namedConfig r.spec.config) ∧
      ∃ name earlier x, r.connectorName = some name ∧ before = earlier ++ [x] ∧
        Answered (.lookup r.spec.host name) (·.status = 404) x
  /-- A configuration is replaced by that of the record, after another one was read. -/
  put : ∀ before q reply after, w = before ++ Wire.ofCluster q reply :: after →
    q.method = .put → q.body = some (configJson r.spec.config) ∧
      ∃ config, r.Saw before config ∧ config ≠ r.spec.config
  /-- Before a cluster is asked about a live record without the finalizer, it was added. -/
  adoption : r.finalizerPresent = false → r.deletionRequested = false →
    ∀ before q reply after, w = before ++ Wire.ofCluster q reply :: after →
      ∃ patch answer changed later, before = Wire.ofApi patch answer :: later ∧
        (Wire.api patch).AddsFinalizer ∧ Api.judge Record.decoder answer = .ok changed
  /-- A connector is deleted for a record that is being deleted and has the finalizer. -/
  delete : ∀ q reply, Wire.ofCluster q reply ∈ w → q.method = .delete →
    r.deletionRequested = true ∧ r.finalizerPresent = true
  /-- The finalizer is taken off such a record right after its connector is known to
  be gone, or as the only request of the pass if the record names none. -/
  release : ∀ before q reply after, w = before ++ Wire.ofApi q reply :: after →
    (Wire.api q).RemovesFinalizer →
      (r.deletionRequested = true ∧ r.finalizerPresent = true) ∧
        ((∃ x, before = [x] ∧ Accepted .delete [200, 204, 404] x) ∨
          r.connectorName = none ∧ before = [] ∧ after = [])
  /-- The status of a live record is written last of all, once its connector is as it
  should be, and the pass succeeds whatever comes of it. -/
  report : ∀ before q reply after, w = before ++ Wire.ofApi q reply :: after →
    (Wire.api q).SetsStatus →
      r.deletionRequested = false ∧ r.InSync before ∧ after = [] ∧ ∃ o, result = .ok o

variable {r : Record} {name : String} {past : List (Exchange Wire.Reply)}

/-! ## The protocol of every run -/

/-- What never comes after another of its kind comes once at most. -/
theorem countP_le_one {α : Type} {p : α → Bool} {w : List α}
    (h : ∀ before x after, w = before ++ x :: after → p x = true → ∀ y ∈ before, p y = false) :
    w.countP p ≤ 1 := by
  induction w using List.reverseRecOn with
  | nil => exact Nat.zero_le _
  | append_singleton w x ih =>
    rw [List.countP_append, List.countP_singleton]
    split
    · next hx =>
      have hnone : w.countP p = 0 := by
        rw [List.countP_eq_zero]
        intro y hy
        rw [h w x [] rfl hx y hy]
        exact Bool.false_ne_true
      omega
    · refine ih ?_
      intro before y after hw
      exact h before y (after ++ [x]) (by rw [hw, List.append_assoc, List.cons_append])

section Clauses

variable {w before after : List (Exchange Wire.Reply)} {result : Except PassError Outcome}

/-- There are three ways in which a pass changes the record. -/
theorem MaySend.patch {q : Api.Request} (h : r.MaySend before (.api q)) :
    (Wire.api q).AddsFinalizer ∨ (Wire.api q).RemovesFinalizer ∨ (Wire.api q).SetsStatus := by
  cases h with
  | adopt _ hq => exact .inl hq
  | report _ _ _ hq => exact .inr (.inr hq)
  | release _ _ _ hq => exact .inr (.inl hq)
  | nameless _ _ _ hq => exact .inr (.inl hq)

/-- A connector is created right after its cluster did not know it. -/
theorem MaySend.of_post {q : Http.Request} (h : r.MaySend before (.cluster q))
    (hq : q.method = .post) :
    q.body = some (Connect.namedConfig r.spec.config) ∧
      ∃ name earlier x, r.connectorName = some name ∧ before = earlier ++ [x] ∧
        Answered (.lookup r.spec.host name) (·.status = 404) x := by
  cases h with
  | create hlooked _ hname _ hbody =>
    cases hlooked with
    | mk _ hx => exact ⟨hbody, _, _, _, hname, rfl, hx⟩
  | ask _ _ hmethod => cases hq.symm.trans hmethod
  | update _ _ _ _ hmethod => cases hq.symm.trans hmethod
  | delete _ _ _ hmethod => cases hq.symm.trans hmethod

/-- A configuration is replaced after another one was seen in its place. -/
theorem MaySend.of_put {q : Http.Request} (h : r.MaySend before (.cluster q))
    (hq : q.method = .put) :
    q.body = some (configJson r.spec.config) ∧
      ∃ config, r.Saw before config ∧ config ≠ r.spec.config := by
  cases h with
  | update hread _ hname hconfig _ hbody => exact ⟨hbody, _, hread.saw hname, hconfig⟩
  | ask _ _ hmethod => cases hq.symm.trans hmethod
  | create _ _ _ hmethod => cases hq.symm.trans hmethod
  | delete _ _ _ hmethod => cases hq.symm.trans hmethod

/-- A connector is deleted for a record that is being deleted and is held. -/
theorem MaySend.of_delete {q : Http.Request} (h : r.MaySend before (.cluster q))
    (hq : q.method = .delete) : r.deletionRequested = true ∧ r.finalizerPresent = true := by
  cases h with
  | delete hdeleting hpresent => exact ⟨hdeleting, hpresent⟩
  | ask _ _ hmethod => cases hq.symm.trans hmethod
  | create _ _ _ hmethod => cases hq.symm.trans hmethod
  | update _ _ _ _ hmethod => cases hq.symm.trans hmethod

/-- The exchanges begin with the successful addition of the finalizer. -/
def Begun (past : List (Exchange Wire.Reply)) : Prop :=
  ∃ patch answer changed later, past = Wire.ofApi patch answer :: later ∧
    (Wire.api patch).AddsFinalizer ∧ Api.judge Record.decoder answer = .ok changed

/-- A pass that has begun stays so. -/
theorem Begun.append {past : List (Exchange Wire.Reply)} (h : Begun past)
    (rest : List (Exchange Wire.Reply)) : Begun (past ++ rest) := by
  obtain ⟨patch, answer, changed, later, rfl, hpatch⟩ := h
  exact ⟨patch, answer, changed, later ++ rest, rfl, hpatch⟩

theorem Ready.begun (h : r.Ready past) (hmissing : r.finalizerPresent = false) : Begun past := by
  cases h with
  | synced hpresent => cases hmissing.symm.trans hpresent
  | adopted hq _ hreply => exact ⟨_, _, _, [], rfl, hq, hreply⟩

theorem Looked.begun {status : Nat} (h : r.Looked name status past)
    (hmissing : r.finalizerPresent = false) : Begun past := by
  cases h with
  | mk h _ => exact (h.begun hmissing).append _

theorem Read.begun {config : Config} (h : r.Read name config past)
    (hmissing : r.finalizerPresent = false) : Begun past := by
  induction h with
  | config h _ => exact (h.begun hmissing).append _
  | status _ _ ih => exact ih.append _

/-- For a record without our finalizer, no cluster is asked before that is added. -/
theorem MaySend.begun {q : Http.Request} (h : r.MaySend before (.cluster q))
    (hmissing : r.finalizerPresent = false) (hlive : r.deletionRequested = false) :
    Begun before := by
  cases h with
  | ask h =>
    obtain h | ⟨name, h | ⟨config, h⟩⟩ := h
    · exact h.begun hmissing
    · exact h.begun hmissing
    · exact h.begun hmissing
  | create h => exact h.begun hmissing
  | update h => exact h.begun hmissing
  | delete hdeleting => cases hlive.symm.trans hdeleting

/-- Our finalizer is removed after the connector was deleted, or where no name says that
there is one. -/
theorem MaySend.of_removes {q : Api.Request} (h : r.MaySend before (.api q))
    (hq : (Wire.api q).RemovesFinalizer) :
    (r.deletionRequested = true ∧ r.finalizerPresent = true) ∧
      (Deleted before ∨ r.connectorName = none ∧ before = []) := by
  cases h with
  | adopt _ hadds => exact absurd hq hadds.not_removes
  | report _ _ _ _ hkeep => exact absurd hq hkeep
  | release hdeleting hpresent hx => exact ⟨⟨hdeleting, hpresent⟩, .inl ⟨_, rfl, hx⟩⟩
  | nameless hdeleting hpresent hname => exact ⟨⟨hdeleting, hpresent⟩, .inr ⟨hname, rfl⟩⟩

/-- The status is set once connector and record agree. -/
theorem MaySend.of_sets {q : Api.Request} (h : r.MaySend before (.api q))
    (hq : (Wire.api q).SetsStatus) : r.deletionRequested = false ∧ r.InSync before := by
  cases h with
  | adopt _ _ hkeep => exact absurd hq hkeep
  | report h hlive hname => exact ⟨hlive, h.inSync hname⟩
  | release _ _ _ _ hkeep => exact absurd hq hkeep
  | nameless _ _ _ _ hkeep => exact absurd hq hkeep

end Clauses

/-- Every pass keeps to the protocol, whatever it is answered. -/
theorem protocol_of_trace {resync : Duration} {r : Record} {w : List (Exchange Wire.Reply)}
    {result : Except PassError Outcome} (h : (pass resync r).overWire.Trace w result) :
    r.Protocol w result := by
  have hsends : ∀ before x after, w = before ++ x :: after → r.MaySend before x.1 := by
    intro before x after hsplit
    exact (obeys_pass resync r).rule_of_trace h hsplit
  have hends : Ends w result := (obeys_pass resync r).ending_of_trace h
  have hlast : ∀ before x after, w = before ++ x :: after → x.1.Closing → after = [] := by
    intro before x after hsplit hx
    cases after with
    | nil => rfl
    | cons y after =>
      have hopen := (hsends (before ++ [x]) y after (by simp [hsplit])).open
      exact absurd hx (hopen x (by simp))
  constructor
  case patches =>
    intro q reply hq
    obtain ⟨before, after, hsplit⟩ := List.append_of_mem hq
    exact (hsends before _ after hsplit).patch
  case one_change =>
    refine countP_le_one ?_
    intro before x after hsplit hx
    exact (hsends before x after hsplit).unchanged hx
  case post =>
    intro before q reply after hsplit hq
    exact (hsends before _ after hsplit).of_post hq
  case put =>
    intro before q reply after hsplit hq
    exact (hsends before _ after hsplit).of_put hq
  case adoption =>
    intro hmissing hlive before q reply after hsplit
    exact (hsends before _ after hsplit).begun hmissing hlive
  case delete =>
    intro q reply hmem hq
    obtain ⟨before, after, hsplit⟩ := List.append_of_mem hmem
    exact (hsends before _ after hsplit).of_delete hq
  case release =>
    intro before q reply after hsplit hq
    obtain ⟨hrecord, hdeleted | ⟨hname, hfirst⟩⟩ := (hsends before _ after hsplit).of_removes hq
    · exact ⟨hrecord, .inl hdeleted⟩
    · exact ⟨hrecord, .inr ⟨hname, hfirst, hlast before _ after hsplit (.inl hq)⟩⟩
  case report =>
    intro before q reply after hsplit hq
    obtain ⟨hlive, hsync⟩ := (hsends before _ after hsplit).of_sets hq
    refine ⟨hlive, hsync, hlast before _ after hsplit (.inr hq), ?_⟩
    rcases hends with hok | hnone
    · exact hok
    · have hmem : Wire.ofApi q reply ∈ w := by simp [hsplit]
      exact absurd hq (hnone _ hmem)

/-- A cluster without connectors, and an API server that accepts every change. -/
def acceptAll : (q : Wire) → q.Reply
  | .cluster q => some ⟨if q.method = .get then 404 else 201, some (.ofString "")⟩
  | .api _ => .answer 200 (.ofString
      "\x7b\"metadata\":\x7b\x7d,\"spec\":\x7b\"debeziumHost\":\"\",\"config\":\x7b\x7d\x7d\x7d")
  | .clock => ⟨0, 0⟩

/-- A new record, whose connector has to be created. -/
theorem orders_protocol :
    let r : Record := ⟨{ Metadata.empty with name := some "orders", namespaceName := some "prod" },
      ⟨"http://dbz:8083", .ofList [("name", "orders")]⟩, none⟩
    let run := (pass ⟨0, by decide⟩ r).overWire.transcript acceptAll
    (pass ⟨0, by decide⟩ r).overWire.Trace run.1 run.2 ∧
      run.1.map (·.1.word) = ["PATCH", "GET", "POST", "time", "PATCH"] ∧
      run.2 = .ok ⟨.create, some ⟨0, by decide⟩⟩ ∧ r.Protocol run.1 run.2 := by
  intro r run
  have htrace : (pass ⟨0, by decide⟩ r).overWire.Trace run.1 run.2 :=
    Program.trace_transcript acceptAll _
  exact ⟨htrace, by decide +kernel, by decide +kernel, protocol_of_trace htrace⟩

end Record

end ConnectorKeeper
