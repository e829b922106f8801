import ConnectorKeeper.Proofs.Configurations
import ConnectorKeeper.Proofs.FaithfulWorld
import ConnectorKeeper.Proofs.Questions

/-!
# A pass in faithful surroundings

In a faithful world a pass over a live, addressable record that names its connector
succeeds, whatever the record and the clusters look like.  What it asks and which
world it leaves is put together from three steps: the finalizer is put on the record
(`World.Adopted`), the connector is brought to its configuration (`World.Synced`),
and that is reported (`World.Reported`).
-/

namespace ConnectorKeeper

open Program (Ensures Exec Exchange)

namespace World

variable {runtimes : Except ClusterError RuntimeStatus → Prop} {s s' : World} {r : Record}

/-! ## Changes of the record -/

/-- A record can be written in a world: it is addressable, and the one that is stored there. -/
structure Writable (s : World) (r : Record) : Prop where
  /-- Requests about it can be built. -/
  addressable : r.Addressable
  /-- They are about what is stored. -/
  same : Store.address s.record = Store.address r

/-- Connectors have no part in whether the record can be written. -/
theorem Writable.put (h : s.Writable r) (place : String × String) (config : Option Config) :
    (s.put place config).Writable r := ⟨h.addressable, h.same⟩

section Changes

variable {α : Type} {post : List (Exchange Neighbour.Reply) → World → α → Prop}
  {next : Except StoreError Unit → Work α}

/-- Setting the status of a record that can be written succeeds. -/
theorem ensures_patchStatus (hwritable : s.Writable r) {st : Status}
    (hnext : ∀ stored, s.record.Revised stored.record s.record.finalizers (some st) →
      (next (.ok ())).Ensures (answers runtimes) (s.store stored)
        fun w => post (⟨.patchStatus r st, .ok ()⟩ :: w)) :
    (Program.ask (.patchStatus r st) next).Ensures (answers runtimes) s post := by
  have hexec : ∀ (reply : Except StoreError Unit) (s' : World),
      Exec wire (Store.patchStatus r st) s reply s' ↔ reply = .ok () ∧
        ∃ stored, s.stored.Applies (Store.statusPatch st) stored ∧ s' = s.store stored :=
    fun reply s' => exec_patch_iff hwritable.addressable hwritable.same (.inr rfl)
  constructor
  · obtain ⟨stored, happlies⟩ := s.stored.exists_applies_status st
    exact ⟨.ok (), s.store stored, (hexec _ _).2 ⟨rfl, stored, happlies, rfl⟩⟩
  · intro reply s' hreply
    obtain ⟨rfl, stored, happlies, rfl⟩ := (hexec reply s').1 hreply
    exact hnext stored happlies.of_status

/-- So does adding the finalizer that it lacks. -/
theorem ensures_addFinalizer (hwritable : s.Writable r) (hmissing : r.finalizerPresent = false)
    (hnext : ∀ stored,
      s.record.Revised stored.record (r.finalizers ++ [finalizer]) s.record.status →
      (next (.ok ())).Ensures (answers runtimes) (s.store stored)
        fun w => post (⟨.addFinalizer r, .ok ()⟩ :: w)) :
    (Program.ask (.addFinalizer r) next).Ensures (answers runtimes) s post := by
  have hexec : ∀ (reply : Except StoreError Unit) (s' : World),
      Exec wire (Store.addFinalizer r) s reply s' ↔ reply = .ok () ∧
        ∃ stored, s.stored.Applies (Store.finalizersPatch r (r.finalizers ++ [finalizer])) stored ∧
          s' = s.store stored := by
    intro reply s'
    obtain ⟨space, name, haddress, -⟩ := Store.exists_request hwritable.addressable (.inl rfl)
    simp only [Store.addFinalizer, haddress, hmissing, Bool.false_eq_true, if_false]
    exact exec_patch_iff hwritable.addressable hwritable.same (.inl rfl)
  constructor
  · obtain ⟨stored, happlies⟩ := s.stored.exists_applies_finalizers r (r.finalizers ++ [finalizer])
    exact ⟨.ok (), s.store stored, (hexec _ _).2 ⟨rfl, stored, happlies, rfl⟩⟩
  · intro reply s' hreply
    obtain ⟨rfl, stored, happlies, rfl⟩ := (hexec reply s').1 hreply
    exact hnext stored happlies.of_finalizers

end Changes

/-! ## Reporting -/

/-- A report: what is asked, and the world after it. -/
inductive Reported (s : World) (r : Record) (phase : Phase) (reason message : String) :
    List Neighbour → World → Prop
  | unchanged {st : Status} (now : Timestamp)
      (hst : st = r.currentStatus.next phase (.synced reason message now.textFull))
      (h : r.status = some st) : Reported s r phase reason message [.clock] s
  | written {st : Status} (now : Timestamp)
      (hst : st = r.currentStatus.next phase (.synced reason message now.textFull))
      (h : r.status ≠ some st) {stored : StoredRecord}
      (hstored : s.record.Revised stored.record s.record.finalizers (some st)) :
      Reported s r phase reason message [.clock, .patchStatus r st] (s.store stored)

/-- A pass that has done its work reports it and ends well. -/
theorem ensures_finish (hwritable : s.Writable r) (resync : Duration) (action : Action)
    (phase : Phase) (reason message : String) :
    (finish resync r action phase reason message).Ensures (answers runtimes) s fun w s' result =>
      result = .ok ⟨action, some resync⟩ ∧ Reported s r phase reason message (w.map (·.1)) s' := by
  refine Program.ensures_bind_iff.2 ⟨⟨(⟨0, 0⟩ : Timestamp), s, rfl⟩, ?_⟩
  rintro now s' rfl
  dsimp only
  generalize hst : r.currentStatus.next phase (.synced reason message (Timestamp.textFull now)) = st
  split
  · next hsame => exact ⟨rfl, .unchanged now hst.symm hsame⟩
  · next hnew =>
    refine ensures_patchStatus hwritable ?_
    intro stored hstored
    exact ⟨rfl, .written now hst.symm hnew hstored⟩

/-! ## Bringing a connector to its configuration -/

/-- The connector of a record is brought to its configuration, and that reported. -/
inductive Synced (runtimes : Except ClusterError RuntimeStatus → Prop) (s : World) (r : Record)
    (name : String) : List Neighbour → World → Action → Prop
  | created {v : List Neighbour} {s' : World} (h : s.connectors (r.spec.host, name) = none)
      (hreport : Reported (s.put (r.spec.host, name) (some r.spec.config)) r .unknown "Created"
        "Connector created" v s') :
      Synced runtimes s r name
        ([.lookup r.spec.host name, .create r.spec.host r.spec.config] ++ v) s' .create
  | same {v : List Neighbour} {s' : World} {runtime : Except ClusterError RuntimeStatus}
      (h : s.connectors (r.spec.host, name) = some r.spec.config) (hruntime : runtimes runtime)
      (hreport : Reported s r (phaseOf runtime.toOption) "InSync"
        "Connector config matches resource" v s') :
      Synced runtimes s r name
        ([.lookup r.spec.host name, .readConfig r.spec.host name, .readStatus r.spec.host name] ++
          v) s' .noAction
  | updated {v : List Neighbour} {s' : World} {runtime : Except ClusterError RuntimeStatus}
      {config : Config} (h : s.connectors (r.spec.host, name) = some config)
      (hconfig : config ≠ r.spec.config) (hruntime : runtimes runtime)
      (hreport : Reported (s.put (r.spec.host, name) (some r.spec.config)) r
        (phaseOf runtime.toOption) "Updated" "Connector config updated" v s') :
      Synced runtimes s r name
        ([.lookup r.spec.host name, .readConfig r.spec.host name, .readStatus r.spec.host name,
          .update r.spec.host name r.spec.config] ++ v) s' .update

/-- An existing connector is left alone if it has its configuration, else updated. -/
theorem ensures_converge {name : String} {config : Config}
    {runtime : Except ClusterError RuntimeStatus} (hwritable : s.Writable r)
    (hconnector : s.connectors (r.spec.host, name) = some config) (hruntime : runtimes runtime)
    (resync : Duration) :
    (converge resync r name ⟨true, some config, runtime.toOption⟩).Ensures (answers runtimes) s
      fun w s' result => ∃ action, result = .ok ⟨action, some resync⟩ ∧
        Synced runtimes s r name ([.lookup r.spec.host name, .readConfig r.spec.host name,
          .readStatus r.spec.host name] ++ w.map (·.1)) s' action := by
  simp only [converge, Action.choose_present]
  by_cases hsame : r.spec.config = config
  · subst hsame
    rw [if_pos rfl]
    refine (ensures_finish hwritable resync ..).mono ?_
    rintro w s' result ⟨rfl, hreport⟩
    exact ⟨_, rfl, .same hconnector hruntime hreport⟩
  · rw [if_neg hsame]
    refine ⟨⟨.ok (), _, rfl, rfl⟩, ?_⟩
    rintro reply s' ⟨rfl, rfl⟩
    refine (ensures_finish (hwritable.put ..) resync ..).mono ?_
    rintro w s' result ⟨rfl, hreport⟩
    exact ⟨_, rfl, .updated hconnector (Ne.symm hsame) hruntime hreport⟩

/-- Bringing a connector to its configuration succeeds, with the action that was due. -/
theorem ensures_sync {name : String} (hwritable : s.Writable r)
    (hname : r.connectorName = some name) (hruntimes : ∃ runtime, runtimes runtime)
    (resync : Duration) :
    (sync resync r).Ensures (answers runtimes) s fun w s' result => ∃ action,
      result = .ok ⟨action, some resync⟩ ∧ Synced runtimes s r name (w.map (·.1)) s' action := by
  have hfound : (r.spec.config.get? nameKey).getD "" = name := by
    rw [← Record.connectorName, hname]
    rfl
  unfold sync
  rw [hname]
  refine Program.ensures_bind_iff.2 ⟨⟨_, s, rfl, rfl⟩, ?_⟩
  rintro found s₁ ⟨rfl, rfl⟩
  cases hconnector : s₁.connectors (r.spec.host, name) with
  | none =>
    have hcreate : ∀ (reply : Except ClusterError Unit) (s' : World),
        answers runtimes s₁ (.create r.spec.host r.spec.config) reply s' ↔
          s' = s₁.put (r.spec.host, name) (some r.spec.config) ∧ reply = .ok () := by
      intro reply s'
      simp only [answers, hfound, hconnector]
      exact Iff.rfl
    refine ⟨⟨.ok (), _, (hcreate _ _).2 ⟨rfl, rfl⟩⟩, ?_⟩
    intro reply s₂ hreply
    obtain ⟨rfl, rfl⟩ := (hcreate reply s₂).1 hreply
    refine (ensures_finish (hwritable.put ..) resync ..).mono ?_
    rintro w s' result ⟨rfl, hreport⟩
    exact ⟨_, rfl, .created hconnector hreport⟩
  | some config =>
    have hread : ∀ (reply : Except ClusterError Config) (s' : World),
        answers runtimes s₁ (.readConfig r.spec.host name) reply s' ↔
          s' = s₁ ∧ reply = .ok config := by
      intro reply s'
      simp only [answers, hconnector]
      exact Iff.rfl
    refine ⟨⟨.ok config, s₁, (hread _ _).2 ⟨rfl, rfl⟩⟩, ?_⟩
    intro reply s₂ hreply
    obtain ⟨rfl, rfl⟩ := (hread reply s₂).1 hreply
    obtain ⟨runtime, hruntime⟩ := hruntimes
    refine ⟨⟨runtime, s₂, rfl, hruntime⟩, ?_⟩
    rintro runtime s₃ ⟨rfl, hruntime⟩
    exact ensures_converge hwritable hconnector hruntime resync

/-! ## Passes -/

/-- The finalizer is put on the record, unless it is there. -/
inductive Adopted (s : World) : List Neighbour → World → Prop
  | present (h : s.record.finalizerPresent = true) : Adopted s [] s
  | added {stored : StoredRecord} (h : s.record.finalizerPresent = false)
      (hstored : s.record.Revised stored.record (s.record.finalizers ++ [finalizer])
        s.record.status) : Adopted s [.addFinalizer s.record] (s.store stored)

/-- A pass over a live record. -/
def Passed (runtimes : Except ClusterError RuntimeStatus → Prop) (s : World) (name : String)
    (asked : List Neighbour) (s' : World) (action : Action) : Prop :=
  ∃ v₁ v₂ s₁, asked = v₁ ++ v₂ ∧ s.Adopted v₁ s₁ ∧ Synced runtimes s₁ s.record name v₂ s' action

/-- A record whose connector can be brought to its configuration. -/
structure Manageable (s : World) (name : String) : Prop where
  /-- The record is not being deleted. -/
  live : s.record.deletionRequested = false
  /-- It can be written. -/
  addressable : s.record.Addressable
  /-- It names its connector. -/
  named : s.record.connectorName = some name

theorem orders_manageable (connectors : String × String → Option Config) :
    Manageable ⟨.orders, connectors⟩ "orders" where
  live := rfl
  addressable := StoredRecord.orders_addressable
  named := by cbv

/-- A pass over a record that can be managed succeeds. -/
theorem ensures_pass {name : String} (h : s.Manageable name)
    (hruntimes : ∃ runtime, runtimes runtime) (resync : Duration) :
    (pass resync s.record).Ensures (answers runtimes) s fun w s' result => ∃ action,
      result = .ok ⟨action, some resync⟩ ∧ s.Passed runtimes name (w.map (·.1)) s' action := by
  unfold pass Record.lifecycle
  rw [h.live, if_neg Bool.false_ne_true]
  cases hpresent : s.record.finalizerPresent with
  | true =>
    refine (ensures_sync ⟨h.addressable, rfl⟩ h.named hruntimes resync).mono ?_
    rintro w s' result ⟨action, rfl, hsynced⟩
    exact ⟨action, rfl, [], _, s, rfl, .present hpresent, hsynced⟩
  | false =>
    simp only [Bool.false_eq_true, if_false, adopt, h.named, Finalizer.ensure, hpresent]
    refine ensures_addFinalizer ⟨h.addressable, rfl⟩ hpresent ?_
    intro stored hstored
    have hwritable : (s.store stored).Writable s.record := ⟨h.addressable, hstored.address⟩
    refine (ensures_sync hwritable h.named hruntimes resync).mono ?_
    rintro w s' result ⟨action, rfl, hsynced⟩
    exact ⟨action, rfl, [.addFinalizer s.record], _, _, rfl, .added hpresent hstored, hsynced⟩

/-! ## What a pass leaves -/

section Leaves

variable {name : String} {asked : List Neighbour} {action : Action}

/-- A report leaves the connectors. -/
theorem Reported.connectors {phase : Phase} {reason message : String}
    (h : Reported s r phase reason message asked s') : s'.connectors = s.connectors := by
  cases h with
  | unchanged => rfl
  | written => rfl

theorem Reported.revised {phase : Phase} {reason message : String}
    (h : Reported s r phase reason message asked s') :
    ∃ st, s.record.Revised s'.record s.record.finalizers st := by
  cases h with
  | unchanged => exact ⟨_, rfl, rfl, rfl, rfl, rfl, rfl⟩
  | written now hst hnew hstored => exact ⟨_, hstored⟩

/-- Whatever the action was, the connector then has the configuration of the record. -/
theorem Synced.connectors (h : Synced runtimes s r name asked s' action) :
    s'.connectors =
      Function.update s.connectors (r.spec.host, name) (some r.spec.config) := by
  cases h with
  | created _ hreport => exact hreport.connectors
  | same hconnector _ hreport =>
    rw [hreport.connectors, ← hconnector, Function.update_eq_self]
  | updated _ _ _ hreport => exact hreport.connectors

theorem Synced.revised (h : Synced runtimes s r name asked s' action) :
    ∃ st, s.record.Revised s'.record s.record.finalizers st := by
  cases h with
  | created _ hreport => exact hreport.revised
  | same _ _ hreport => exact hreport.revised
  | updated _ _ _ hreport => exact hreport.revised

theorem Adopted.connectors (h : s.Adopted asked s') : s'.connectors = s.connectors := by
  cases h with
  | present => rfl
  | added => rfl

/-- Adopting changes the finalizers of the record alone, and ours is then there. -/
theorem Adopted.revised (h : s.Adopted asked s') :
    ∃ l, s.record.Revised s'.record l s.record.status ∧ finalizer ∈ l := by
  cases h with
  | present hpresent =>
    exact ⟨_, ⟨rfl, rfl, rfl, rfl, rfl, rfl⟩, List.contains_iff_mem.1 hpresent⟩
  | added _ hstored => exact ⟨_, hstored, by simp⟩

/-- A pass changes the connector of its record alone. -/
theorem Passed.connectors (h : s.Passed runtimes name asked s' action) :
    s'.connectors =
      Function.update s.connectors (s.record.spec.host, name) (some s.record.spec.config) := by
  obtain ⟨v₁, v₂, s₁, -, hadopted, hsynced⟩ := h
  rw [hsynced.connectors, hadopted.connectors]

/-- The record keeps all but its finalizers, its status and the entries of the API
server, and has our finalizer. -/
theorem Passed.revised (h : s.Passed runtimes name asked s' action) :
    ∃ l st, s.record.Revised s'.record l st ∧ finalizer ∈ l := by
  obtain ⟨v₁, v₂, s₁, -, hadopted, hsynced⟩ := h
  obtain ⟨l, hfirst, hmem⟩ := hadopted.revised
  obtain ⟨st, hsecond⟩ := hsynced.revised
  rw [hfirst.finalizers] at hsecond
  exact ⟨l, st, hfirst.trans hsecond, hmem⟩

/-- What is to be done about the connector of the record. -/
def due (s : World) (name : String) : Action :=
  match s.connectors (s.record.spec.host, name) with
  | none => .create
  | some config => if config = s.record.spec.config then .noAction else .update

/-- The action is the one that was due. -/
theorem Passed.action_eq (h : s.Passed runtimes name asked s' action) : action = s.due name := by
  obtain ⟨v₁, v₂, s₁, -, hadopted, hsynced⟩ := h
  rw [due, ← hadopted.connectors]
  cases hsynced with
  | created hconnector => simp [hconnector]
  | same hconnector => simp [hconnector]
  | updated hconnector hconfig => simp [hconnector, hconfig]

/-- The connector of the record is there, with its configuration and guarded by the finalizer. -/
structure Settled (s : World) (name : String) : Prop extends s.Manageable name where
  /-- The finalizer is on the record. -/
  present : s.record.finalizerPresent = true
  /-- The connector has the configuration of the record. -/
  connector : s.connectors (s.record.spec.host, name) = some s.record.spec.config

/-- A pass leaves nothing to do. -/
theorem Passed.settled (hmanageable : s.Manageable name)
    (h : s.Passed runtimes name asked s' action) : s'.Settled name := by
  obtain ⟨l, st, hrevised, hmem⟩ := h.revised
  constructor
  · exact
      { live := hrevised.deletionRequested.trans hmanageable.live
        addressable := hrevised.addressable hmanageable.addressable
        named := by rw [Record.connectorName, hrevised.spec, ← Record.connectorName,
          hmanageable.named] }
  · rw [Record.finalizerPresent, hrevised.finalizers]
    exact List.contains_iff_mem.2 hmem
  · rw [hrevised.spec, h.connectors, Function.update_self]

/-- A pass over a settled world asks about the connector and reports, no more. -/
theorem Settled.of_passed (hsettled : s.Settled name) (h : s.Passed runtimes name asked s' action) :
    action = .noAction ∧ ∃ runtime v, runtimes runtime ∧
      asked = [.lookup s.record.spec.host name, .readConfig s.record.spec.host name,
        .readStatus s.record.spec.host name] ++ v ∧
      Reported s s.record (phaseOf runtime.toOption) "InSync"
        "Connector config matches resource" v s' := by
  obtain ⟨v₁, v₂, s₁, rfl, hadopted, hsynced⟩ := h
  cases hadopted with
  | added hmissing => cases hmissing.symm.trans hsettled.present
  | present =>
    have hconnector := hsettled.connector
    cases hsynced with
    | same _ hruntime hreport => exact ⟨rfl, _, _, hruntime, rfl, hreport⟩
    | created hnone => cases hnone.symm.trans hconnector
    | updated hsome hconfig =>
      exact absurd (Option.some.inj (hsome.symm.trans hconnector)) hconfig

end Leaves

end World

end ConnectorKeeper
