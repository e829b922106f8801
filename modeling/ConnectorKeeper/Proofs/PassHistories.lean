import ConnectorKeeper.Proofs.Addressing
import ConnectorKeeper.Proofs.Exchanges

/-!
# Histories of a pass

What a pass has exchanged with its surroundings when it asks its next question.

*Requests.*  What a request changes is told from its method and body alone.

*Histories.*  The exchanges of a pass over a live record pass through stages: the
finalizer is there (`Ready`), the connector was looked up (`Looked`), its
configuration was read (`Read`), and the connector is as it should be (`Settled`).
`MaySend` says what may be asked after which history, also where the record is
being deleted.

What holds of a history is shown along its stages: nothing is asked after what
should be last (`MaySend.open`), and a cluster is changed after nothing but
reading (`MaySend.unchanged`).
-/

namespace ConnectorKeeper

open Program (Exchange)

/-! ## Requests -/

namespace Wire

/-- Something is changed on a cluster. -/
def changesCluster : Wire → Bool
  | .cluster q => q.method ≠ .get
  | _ => false

/-- The finalizers of a record are replaced by the given ones. -/
def SetsFinalizers (l : List String) : Wire → Prop
  | .api q => q.method = .patch ∧ ∃ patch, q.body = some patch ∧
      (patch.member? "metadata").bind (Json.member? "finalizers") = some (Metadata.textListJson l)
  | _ => False

/-- The finalizers of a record are replaced, and ours is among them. -/
def AddsFinalizer (q : Wire) : Prop := ∃ l, q.SetsFinalizers l ∧ finalizer ∈ l

/-- The finalizers of a record are replaced, and ours is not among them. -/
def RemovesFinalizer (q : Wire) : Prop := ∃ l, q.SetsFinalizers l ∧ finalizer ∉ l

/-- The status of a record is changed. -/
def SetsStatus : Wire → Prop
  | .api q => q.method = .patch ∧ ∃ patch, q.body = some patch ∧ (patch.member? "status").isSome
  | _ => False

/-- A request to a cluster and what came of it. -/
def ofCluster (q : Http.Request) (reply : Option Http.Response) : Exchange Wire.Reply :=
  ⟨.cluster q, reply⟩

/-- A request to the API server and what came of it. -/
def ofApi (q : Api.Request) (reply : Api.Reply) : Exchange Wire.Reply := ⟨.api q, reply⟩

theorem textListJson_inj {l l' : List String}
    (h : Metadata.textListJson l = Metadata.textListJson l') : l = l' := by
  have htext : Function.Injective Json.text := by
    intro a b hab
    cases hab
    rfl
  simp only [Metadata.textListJson, Json.array.injEq] at h
  exact List.map_injective_iff.2 htext h

/-- A change of the finalizers tells which ones it sets. -/
theorem SetsFinalizers.unique {q : Wire} {l l' : List String} (h : q.SetsFinalizers l)
    (h' : q.SetsFinalizers l') : l = l' := by
  cases q with
  | cluster q => exact h.elim
  | clock => exact h.elim
  | api q =>
    obtain ⟨-, patch, hbody, hl⟩ := h
    obtain ⟨-, patch', hbody', hl'⟩ := h'
    obtain rfl := Option.some.inj (hbody.symm.trans hbody')
    exact textListJson_inj (Option.some.inj (hl.symm.trans hl'))

/-- No change both adds our finalizer and removes it. -/
theorem AddsFinalizer.not_removes {q : Wire} (h : q.AddsFinalizer) : ¬ q.RemovesFinalizer := by
  rintro ⟨l', hl', hmem'⟩
  obtain ⟨l, hl, hmem⟩ := h
  exact hmem' (hl.unique hl' ▸ hmem)

/-- The finalizer is taken off, or the status changed: nothing should follow. -/
def Closing (q : Wire) : Prop := q.RemovesFinalizer ∨ q.SetsStatus

theorem AddsFinalizer.not_closing {q : Wire} (h : q.AddsFinalizer) (hkeep : ¬ q.SetsStatus) :
    ¬ q.Closing := by
  rintro (hremoves | hsets)
  · exact h.not_removes hremoves
  · exact hkeep hsets

theorem not_closing_cluster (q : Http.Request) : ¬ (Wire.cluster q).Closing := by
  rintro (⟨l, hl, -⟩ | h)
  · exact hl
  · exact h

theorem not_closing_clock : ¬ Wire.clock.Closing := by
  rintro (⟨l, hl, -⟩ | h)
  · exact hl
  · exact h

end Wire

namespace Store

/-- What a patch of the finalizers changes, and that it leaves the status. -/
theorem member?_finalizersPatch (r : Record) (l : List String) :
    ((finalizersPatch r l).member? "metadata").bind (Json.member? "finalizers") =
      some (Metadata.textListJson l) ∧
    (finalizersPatch r l).member? "status" = none := by
  cases hversion : r.metadata.resourceVersion with
  | none => simp [finalizersPatch, hversion, Json.member?, Json.record, Json.optional]
  | some version => simp [finalizersPatch, hversion, Json.member?, Json.record, Json.optional]

/-- What a patch of the status changes, and that it leaves the metadata. -/
theorem member?_statusPatch (s : Status) :
    (statusPatch s).member? "metadata" = none ∧ ((statusPatch s).member? "status").isSome := by
  simp [statusPatch, Json.member?, Json.record]

end Store

/-! ## Answers -/

/-- The method and the body of a request are those of its exchange. -/
theorem Connect.eq_of_mayAsk_exchange {α : Type} {host : String} {segments : List String}
    {method : Http.Method} {body : Option Json} {judge : Http.Response → Except ClusterError α}
    {q : Http.Request}
    (h : (exchange host segments method body judge).MayAsk (.cluster q)) :
    q.method = method ∧ q.body = body := by
  obtain ⟨e, -, hsend⟩ | ⟨base, q', lost, -, hmethod, hbody, -, -, hsend⟩ :=
    cases_of_exchange host segments method body judge
  · rw [hsend] at h
    exact absurd h (Program.not_mayAsk_done _ _)
  · rw [hsend, Program.mayAsk_ask] at h
    obtain heq | ⟨reply, h⟩ := h
    · cases heq
      exact ⟨hmethod, hbody⟩
    · exact absurd h (Program.not_mayAsk_done _ _)

theorem Connect.method_of_mayAsk_exchange {α : Type} {host : String} {segments : List String}
    {method : Http.Method} {body : Option Json} {judge : Http.Response → Except ClusterError α}
    {q : Http.Request}
    (h : (exchange host segments method body judge).MayAsk (.cluster q)) :
    q.method = method := (eq_of_mayAsk_exchange h).1

/-- The exchange is the request of a question, with a response of some kind. -/
def Answered (n : Neighbour) (kind : Http.Response → Prop) (x : Exchange Wire.Reply) : Prop :=
  ∃ q response, x = Wire.ofCluster q (some response) ∧ n.overWire.MayAsk (.cluster q) ∧
    kind response

/-- The exchange is a request of a method, with a response of one of some statuses. -/
def Accepted (method : Http.Method) (statuses : List Nat) (x : Exchange Wire.Reply) : Prop :=
  ∃ q response, x = Wire.ofCluster q (some response) ∧ q.method = method ∧
    response.status ∈ statuses

/-- A cluster that accepts something closes no pass: only a change of the record does. -/
theorem Accepted.not_closing {x : Exchange Wire.Reply} {method : Http.Method} {statuses : List Nat}
    (h : Accepted method statuses x) : ¬ x.1.Closing := by
  obtain ⟨q, response, rfl, -⟩ := h
  exact Wire.not_closing_cluster q

/-- A body is read from a response of status 200 alone. -/
theorem Connect.acceptBody_eq_ok_iff {α : Type} {operation : String} {decoder : Json.Decoder α}
    {response : Http.Response} {a : α} :
    acceptBody operation decoder response = .ok a ↔
      response.status = 200 ∧ response.body.bind (Json.decodeText? decoder) = some a := by
  unfold acceptBody decodeBody
  split
  · next hstatus =>
    split
    · next read hread => simp [hstatus, hread]
    · next hread => simp [hread]
  · next hstatus => simp [hstatus]

/-- The response holds a configuration. -/
def Http.Response.Holds (config : Config) (response : Http.Response) : Prop :=
  response.status = 200 ∧
    response.body.bind (Json.decodeText? configDecoder) = some config

namespace Record

/-- The connector of a record was found, and the configuration that it runs with was read. -/
def Saw (r : Record) (past : List (Exchange Wire.Reply)) (config : Config) : Prop :=
  ∃ name earlier x y later, r.connectorName = some name ∧ past = earlier ++ x :: y :: later ∧
    Answered (.lookup r.spec.host name) (·.status = 200) x ∧
    Answered (.readConfig r.spec.host name) (·.Holds config) y

/-- The connector of a record is known to have the configuration of the record. -/
def InSync (r : Record) (past : List (Exchange Wire.Reply)) : Prop :=
  (∃ x ∈ past, Accepted .post [200, 201] x) ∨ (∃ x ∈ past, Accepted .put [200] x) ∨
    r.Saw past r.spec.config

/-! ## Histories -/

/-- The finalizer is on the record. -/
inductive Ready (r : Record) : List (Exchange Wire.Reply) → Prop
  | synced (h : r.finalizerPresent = true) : Ready r []
  | adopted {q : Api.Request} {reply : Api.Reply} {changed : Record}
      (hq : (Wire.api q).AddsFinalizer) (hkeep : ¬ (Wire.api q).SetsStatus)
      (hreply : Api.judge Record.decoder reply = .ok changed) : Ready r [Wire.ofApi q reply]

/-- The connector was looked up, with a response of some status. -/
inductive Looked (r : Record) (name : String) (status : Nat) : List (Exchange Wire.Reply) → Prop
  | mk {past : List (Exchange Wire.Reply)} {x : Exchange Wire.Reply} (h : r.Ready past)
      (hx : Answered (.lookup r.spec.host name) (·.status = status) x) :
      Looked r name status (past ++ [x])

/-- The configuration of the connector was read, and what it is doing perhaps too. -/
inductive Read (r : Record) (name : String) (config : Config) :
    List (Exchange Wire.Reply) → Prop
  | config {past : List (Exchange Wire.Reply)} {x : Exchange Wire.Reply}
      (h : r.Looked name 200 past)
      (hx : Answered (.readConfig r.spec.host name) (·.Holds config) x) :
      Read r name config (past ++ [x])
  | status {past : List (Exchange Wire.Reply)} {q : Http.Request} {reply : Option Http.Response}
      (h : Read r name config past) (hq : q.method = .get) :
      Read r name config (past ++ [Wire.ofCluster q reply])

/-- The connector has the configuration of the record. -/
inductive Settled (r : Record) (name : String) : List (Exchange Wire.Reply) → Prop
  | created {past : List (Exchange Wire.Reply)} {x : Exchange Wire.Reply}
      (h : r.Looked name 404 past) (hx : Accepted .post [200, 201] x) : Settled r name (past ++ [x])
  | updated {past : List (Exchange Wire.Reply)} {x : Exchange Wire.Reply} {config : Config}
      (h : r.Read name config past) (hx : Accepted .put [200] x) : Settled r name (past ++ [x])
  | same {past : List (Exchange Wire.Reply)} (h : r.Read name r.spec.config past) :
      Settled r name past
  | clock {past : List (Exchange Wire.Reply)} (h : Settled r name past)
      (now : Wire.Reply .clock) : Settled r name (past ++ [⟨.clock, now⟩])

/-- What a pass over a record may ask after its exchanges so far. -/
inductive MaySend (r : Record) : List (Exchange Wire.Reply) → Wire → Prop
  | adopt {q : Api.Request} (hlive : r.deletionRequested = false)
      (hq : (Wire.api q).AddsFinalizer) (hkeep : ¬ (Wire.api q).SetsStatus) :
      MaySend r [] (.api q)
  | ask {past : List (Exchange Wire.Reply)} {q : Http.Request}
      (h : r.Ready past ∨ ∃ name, r.Looked name 200 past ∨ ∃ config, r.Read name config past)
      (hlive : r.deletionRequested = false) (hq : q.method = .get) : MaySend r past (.cluster q)
  | create {past : List (Exchange Wire.Reply)} {q : Http.Request} {name : String}
      (h : r.Looked name 404 past) (hlive : r.deletionRequested = false)
      (hname : r.connectorName = some name) (hq : q.method = .post)
      (hbody : q.body = some (Connect.namedConfig r.spec.config)) : MaySend r past (.cluster q)
  | update {past : List (Exchange Wire.Reply)} {q : Http.Request} {name : String}
      {config : Config} (h : r.Read name config past) (hlive : r.deletionRequested = false)
      (hname : r.connectorName = some name) (hconfig : config ≠ r.spec.config)
      (hq : q.method = .put) (hbody : q.body = some (configJson r.spec.config)) :
      MaySend r past (.cluster q)
  | clock {past : List (Exchange Wire.Reply)} {name : String} (h : r.Settled name past) :
      MaySend r past .clock
  | report {past : List (Exchange Wire.Reply)} {q : Api.Request} {name : String}
      (h : r.Settled name past) (hlive : r.deletionRequested = false)
      (hname : r.connectorName = some name) (hq : (Wire.api q).SetsStatus)
      (hkeep : ¬ (Wire.api q).RemovesFinalizer) : MaySend r past (.api q)
  | delete {q : Http.Request} (hdeleting : r.deletionRequested = true)
      (hpresent : r.finalizerPresent = true) (hname : r.connectorName.isSome)
      (hq : q.method = .delete) : MaySend r [] (.cluster q)
  | release {q : Api.Request} {x : Exchange Wire.Reply} (hdeleting : r.deletionRequested = true)
      (hpresent : r.finalizerPresent = true) (hx : Accepted .delete [200, 204, 404] x)
      (hq : (Wire.api q).RemovesFinalizer) (hkeep : ¬ (Wire.api q).SetsStatus) :
      MaySend r [x] (.api q)
  | nameless {q : Api.Request} (hdeleting : r.deletionRequested = true)
      (hpresent : r.finalizerPresent = true) (hname : r.connectorName = none)
      (hq : (Wire.api q).RemovesFinalizer) (hkeep : ¬ (Wire.api q).SetsStatus) :
      MaySend r [] (.api q)

/-! ## What histories hold -/

section Histories

variable {r : Record} {name : String} {config : Config} {status : Nat}
  {past : List (Exchange Wire.Reply)} {x : Exchange Wire.Reply}

/-- Nothing that should be last was asked. -/
def Open (past : List (Exchange Wire.Reply)) : Prop := ∀ x ∈ past, ¬ x.1.Closing

/-- And no cluster was changed. -/
def Quiet (past : List (Exchange Wire.Reply)) : Prop :=
  ∀ x ∈ past, x.1.changesCluster = false ∧ ¬ x.1.Closing

/-- While no cluster has been changed, the pass is not closed either. -/
theorem Quiet.open (h : Quiet past) : Open past := fun x hx => (h x hx).2

theorem Open.concat (h : Open past) (hx : ¬ x.1.Closing) : Open (past ++ [x]) :=
  List.forall_mem_append.2 ⟨h, List.forall_mem_singleton.2 hx⟩

/-- Reading keeps quiet. -/
theorem Quiet.concat_get (h : Quiet past) {q : Http.Request} (hq : q.method = .get)
    (reply : Option Http.Response) : Quiet (past ++ [Wire.ofCluster q reply]) := by
  refine List.forall_mem_append.2 ⟨h, List.forall_mem_singleton.2 ⟨?_, ?_⟩⟩
  · simp [Wire.ofCluster, Wire.changesCluster, hq]
  · exact Wire.not_closing_cluster q

theorem Ready.quiet (h : r.Ready past) : Quiet past := by
  cases h with
  | synced h =>
    intro x hx
    cases hx
  | adopted hq hkeep _ => exact List.forall_mem_singleton.2 ⟨rfl, hq.not_closing hkeep⟩

theorem Looked.quiet (h : r.Looked name status past) : Quiet past := by
  cases h with
  | mk h hx =>
    obtain ⟨q, response, rfl, hq, -⟩ := hx
    exact h.quiet.concat_get (Connect.method_of_mayAsk_exchange hq) _

theorem Read.quiet (h : r.Read name config past) : Quiet past := by
  induction h with
  | config h hx =>
    obtain ⟨q, response, rfl, hq, -⟩ := hx
    exact h.quiet.concat_get (Connect.method_of_mayAsk_exchange hq) _
  | status _ hq ih => exact ih.concat_get hq _

theorem Settled.open (h : r.Settled name past) : Open past := by
  induction h with
  | created h hx => exact h.quiet.open.concat hx.not_closing
  | updated h hx => exact h.quiet.open.concat hx.not_closing
  | same h => exact h.quiet.open
  | clock _ now ih => exact ih.concat Wire.not_closing_clock

/-- A closed pass sends nothing more. -/
theorem MaySend.open {q : Wire} (h : r.MaySend past q) : Open past := by
  cases h with
  | adopt | delete | nameless => exact List.forall_mem_nil _
  | ask h =>
    obtain h | ⟨name, h | ⟨config, h⟩⟩ := h
    · exact h.quiet.open
    · exact h.quiet.open
    · exact h.quiet.open
  | create h => exact h.quiet.open
  | update h => exact h.quiet.open
  | clock h => exact h.open
  | report h => exact h.open
  | release _ _ hx => exact List.forall_mem_singleton.2 hx.not_closing

/-- A cluster is changed once in a pass at most. -/
theorem MaySend.unchanged {q : Wire} (h : r.MaySend past q) (hq : q.changesCluster = true) :
    ∀ x ∈ past, x.1.changesCluster = false := by
  cases h with
  | delete => exact List.forall_mem_nil _
  | create h => exact fun x hx => (h.quiet x hx).1
  | update h => exact fun x hx => (h.quiet x hx).1
  | ask _ _ hmethod => simp [Wire.changesCluster, hmethod] at hq
  | adopt | clock | report | release | nameless => cases hq

/-! ### What was seen -/

/-- What has been seen stays seen. -/
theorem Saw.concat (h : r.Saw past config) (x : Exchange Wire.Reply) :
    r.Saw (past ++ [x]) config := by
  obtain ⟨name, earlier, y, z, later, hname, rfl, hy, hz⟩ := h
  exact ⟨name, earlier, y, z, later ++ [x], hname, by simp, hy, hz⟩

/-- A configuration that was read has been seen. -/
theorem Read.saw (h : r.Read name config past) (hname : r.connectorName = some name) :
    r.Saw past config := by
  induction h with
  | config h hy =>
    cases h with
    | mk h hx => exact ⟨name, _, _, _, [], hname, List.append_assoc .., hx, hy⟩
  | status _ _ ih => exact ih.concat _

/-- Once connector and record agree, later exchanges do not undo it. -/
theorem InSync.concat (h : r.InSync past) (x : Exchange Wire.Reply) : r.InSync (past ++ [x]) := by
  obtain ⟨y, hy, h⟩ | ⟨y, hy, h⟩ | h := h
  · exact .inl ⟨y, List.mem_append_left _ hy, h⟩
  · exact .inr (.inl ⟨y, List.mem_append_left _ hy, h⟩)
  · exact .inr (.inr (h.concat x))

/-- A pass that is settled has brought connector and record to agree, or seen it. -/
theorem Settled.inSync (h : r.Settled name past) (hname : r.connectorName = some name) :
    r.InSync past := by
  induction h with
  | created _ hx => exact .inl ⟨_, by simp, hx⟩
  | updated _ hx => exact .inr (.inl ⟨_, by simp, hx⟩)
  | same h => exact .inr (.inr (h.saw hname))
  | clock _ now ih => exact ih.concat _

end Histories

end Record

end ConnectorKeeper
