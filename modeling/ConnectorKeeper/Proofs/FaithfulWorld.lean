import ConnectorKeeper.Proofs.Exchanges
import ConnectorKeeper.Proofs.Interleaving
import ConnectorKeeper.Proofs.StoredDocuments
import ConnectorKeeper.Proofs.Targets
import ConnectorKeeper.Reconcile.Pass

/-!
# Faithful surroundings

A world in which everything that a pass asks for is done.  The clusters answer
truthfully and do what they are told; only the runtime status of a connector may
be anything, or not to be had.  The API server applies every patch to the document
that it keeps, and may write entries of its own as it does so (`StoredRecord.Applies`).

In such a world every patch of an addressable record succeeds, and the record
then is what the patch says (`Record.Revised`).
-/

namespace ConnectorKeeper

open Api (Plain)
open Program (Ensures Exec)

/-! ## Addressable records -/

namespace Store

/-- The path of a collection is plain if the namespace is. -/
theorem plain_collection {space : String} (h : Plain space) : Plain (collection space) := by
  have hbefore : Plain ("/apis/" ++ apiVersion ++ "/namespaces/") := by decide
  have hplural : Plain ("/" ++ recordPlural) := by decide
  rw [collection_eq]
  exact (hbefore.append h).append hplural

/-- What is added to a namespace for the path of its collection is short. -/
theorem utf8ByteSize_collection_le (space : String) :
    (collection space).utf8ByteSize ≤ space.utf8ByteSize + 200 := by
  have hbefore : ("/apis/" ++ apiVersion ++ "/namespaces/").utf8ByteSize ≤ 100 := by decide
  have hplural : ("/" ++ recordPlural).utf8ByteSize ≤ 100 := by decide
  rw [collection_eq, String.utf8ByteSize_append, String.utf8ByteSize_append]
  omega

end Store

/-- Requests about the record can be built: namespace and name are there, have only
characters of a path, and are not too long. -/
def Record.Addressable (r : Record) : Prop :=
  ∃ space name, r.metadata.namespaceName = some space ∧ r.metadata.name = some name ∧ name ≠ "" ∧
    Plain space ∧ Plain name ∧
    (Store.collection space ++ "/" ++ name ++ "/status").utf8ByteSize < Http.targetLimit

/-- The names that the API server gives out are short enough. -/
theorem Record.addressable_of_short {r : Record} {space name : String}
    (hspace : r.metadata.namespaceName = some space) (hname : r.metadata.name = some name)
    (hne : name ≠ "") (hplain : Plain space) (hplain' : Plain name)
    (hshort : space.utf8ByteSize ≤ 63) (hshort' : name.utf8ByteSize ≤ 253) : r.Addressable := by
  refine ⟨space, name, hspace, hname, hne, hplain, hplain', ?_⟩
  have hcollection := Store.utf8ByteSize_collection_le space
  have hslash : "/".utf8ByteSize = 1 := by decide
  have hpart : "/status".utf8ByteSize = 7 := by decide
  have hlimit : 1000 < Http.targetLimit := by decide
  simp only [String.utf8ByteSize_append]
  omega

namespace Store

/-- A patch of an addressable record, or of its status, can be sent. -/
theorem exists_request {r : Record} (h : r.Addressable) {part : String}
    (hpart : part = "" ∨ part = "/status") :
    ∃ space name, address r = .ok (space, name) ∧ ∀ body, ∃ q,
      Api.objectRequest .patch (collection space) name part "" (some body) = .ok q ∧
        q.method = .patch ∧ q.body = some body ∧ Names r q.path := by
  obtain ⟨space, name, hspace, hname, hne, hspace', hname', hsize⟩ := h
  have haddress : address r = .ok (space, name) := by rw [address, hspace, hname]
  refine ⟨space, name, haddress, ?_⟩
  intro body
  have hplain : Plain (collection space ++ "/" ++ name ++ part) := by
    have hslash : Plain "/" := by decide
    refine (((plain_collection hspace').append hslash).append hname').append ?_
    obtain rfl | rfl := hpart
    · decide
    · decide
  have hsize : (collection space ++ "/" ++ name ++ part).utf8ByteSize < Http.targetLimit := by
    obtain rfl | rfl := hpart
    · simp only [String.utf8ByteSize_append] at hsize ⊢
      have hnone : "".utf8ByteSize = 0 := by decide
      omega
    · exact hsize
  have htarget := Api.splitTarget_plain hplain hsize
  refine ⟨⟨.patch, collection space ++ "/" ++ name ++ part, "", some body⟩, ?_, rfl, rfl,
    space, name, part, haddress, hpart, rfl⟩
  refine Api.objectRequest_eq_ok_iff.2 ⟨hne, (_, _), ?_, rfl⟩
  rw [if_neg (by decide), String.append_empty, htarget]

end Store

/-! ## The API server -/

/-- A record after a change that leaves spec, address and deletion mark. -/
structure Record.Revised (r r' : Record) (finalizers : List String) (status : Option Status) :
    Prop where
  /-- The spec is as before. -/
  spec : r'.spec = r.spec
  /-- The name is as before. -/
  name : r'.metadata.name = r.metadata.name
  /-- The namespace is as before. -/
  namespaceName : r'.metadata.namespaceName = r.metadata.namespaceName
  /-- The deletion mark is as before. -/
  deletionTimestamp : r'.metadata.deletionTimestamp = r.metadata.deletionTimestamp
  /-- The finalizers are these. -/
  finalizers : r'.finalizers = finalizers
  /-- The status is this one. -/
  status : r'.status = status

/-- A change of finalizers and status leaves the address. -/
theorem Record.Revised.addressable {r r' : Record} {l : List String} {st : Option Status}
    (h : r.Revised r' l st) (hr : r.Addressable) : r'.Addressable := by
  unfold Addressable at *
  rw [h.name, h.namespaceName]
  exact hr

theorem Record.Revised.address {r r' : Record} {l : List String} {st : Option Status}
    (h : r.Revised r' l st) : Store.address r' = Store.address r := by
  unfold Store.address
  rw [h.name, h.namespaceName]

theorem Record.Revised.deletionRequested {r r' : Record} {l : List String} {st : Option Status}
    (h : r.Revised r' l st) : r'.deletionRequested = r.deletionRequested := by
  unfold Record.deletionRequested
  rw [h.deletionTimestamp]

/-- Of two changes the second counts. -/
theorem Record.Revised.trans {r r' r'' : Record} {l l' : List String} {st st' : Option Status}
    (h : r.Revised r' l st) (h' : r'.Revised r'' l' st') : r.Revised r'' l' st' :=
  ⟨h'.spec.trans h.spec, h'.name.trans h.name, h'.namespaceName.trans h.namespaceName,
    h'.deletionTimestamp.trans h.deletionTimestamp, h'.finalizers, h'.status⟩

/-- A document of the API server, with the record that it reads as. -/
structure StoredRecord where
  /-- The members of the document. -/
  members : List (Option String × Json)
  /-- The record. -/
  record : Record
  /-- The document reads as the record. -/
  reads : Json.decode? Record.decoder (.object members) = some record

namespace StoredRecord

variable {s s' : StoredRecord}

/-- A patch is merged into the document, and the API server writes its own entries. -/
def Applies (s : StoredRecord) (patch : Json) (s' : StoredRecord) : Prop :=
  ∃ merged version generation managed,
    Json.decode? Record.decoder ((Json.object s.members).merge patch) = some merged ∧
      s'.record = merged.restamp version generation managed

/-- A patch of an object can be applied if the outcome is a record. -/
theorem exists_applies {changes : List (Option String × Json)} {merged : Record}
    (h : Json.decode? Record.decoder ((Json.object s.members).merge (.object changes)) =
      some merged) : ∃ s', s.Applies (.object changes) s' := by
  have hdoc : Json.decode? Record.decoder (.object (Json.mergeMembers s.members changes)) =
      some merged := by
    rw [← h, Json.merge, Json.members]
  exact ⟨⟨_, merged, hdoc⟩, merged, _, _, _, h, rfl⟩

theorem exists_applies_finalizers (s : StoredRecord) (q : Record) (l : List String) :
    ∃ s', s.Applies (Store.finalizersPatch q l) s' :=
  exists_applies (Record.decode_merge_finalizers s.reads q l)

theorem exists_applies_status (s : StoredRecord) (st : Status) :
    ∃ s', s.Applies (Store.statusPatch st) s' :=
  exists_applies (Record.decode_merge_status s.reads st)

/-- A patch of the finalizers changes these alone. -/
theorem Applies.of_finalizers {q : Record} {l : List String}
    (h : s.Applies (Store.finalizersPatch q l) s') :
    s.record.Revised s'.record l s.record.status := by
  obtain ⟨merged, version, generation, managed, hmerged, hs'⟩ := h
  rw [Record.decode_merge_finalizers s.reads] at hmerged
  obtain rfl := Option.some.inj hmerged
  rw [hs']
  exact ⟨rfl, rfl, rfl, rfl, rfl, rfl⟩

/-- A patch of the status changes this alone. -/
theorem Applies.of_status {st : Status} (h : s.Applies (Store.statusPatch st) s') :
    s.record.Revised s'.record s.record.finalizers (some st) := by
  obtain ⟨merged, version, generation, managed, hmerged, hs'⟩ := h
  rw [Record.decode_merge_status s.reads] at hmerged
  obtain rfl := Option.some.inj hmerged
  rw [hs']
  exact ⟨rfl, rfl, rfl, rfl, rfl, rfl⟩

/-- A record that a pass has yet to see, with a condition that is there twice. -/
def orders : StoredRecord where
  members := [
    (some "metadata", .record [("name", .text "orders"), ("namespace", .text "prod")]),
    (some "spec", .record [("debeziumHost", .text "http://dbz:8083"),
      ("config", .record [("name", .text "orders"), ("tasks.max", .text "1")])]),
    (some "status", .record [("phase", .text "UNKNOWN"), ("conditions", .array
      (List.replicate 2 (.record [("type", .text "Synced"), ("status", .text "True"),
        ("reason", .text "InSync"), ("message", .text ""), ("lastTransitionTime", .text "")])))])]
  record := ⟨{ Metadata.empty with name := some "orders", namespaceName := some "prod" },
    ⟨"http://dbz:8083", .ofList [("name", "orders"), ("tasks.max", "1")]⟩,
    some ⟨.unknown, List.replicate 2 (.synced "InSync" "" "")⟩⟩
  reads := by rfl

theorem orders_addressable : orders.record.Addressable :=
  Record.addressable_of_short rfl rfl (by decide) (by decide) (by decide) (by decide) (by decide)

end StoredRecord

/-! ## Worlds -/

/-- A record and the connectors of all clusters. -/
structure World where
  /-- The record as it is stored. -/
  stored : StoredRecord
  /-- The configurations of the connectors, by host and name. -/
  connectors : String × String → Option Config

namespace World

/-- The record that a pass starts from. -/
def record (s : World) : Record := s.stored.record

/-- The world with another document. -/
def store (s : World) (stored : StoredRecord) : World := { s with stored }

/-- The world with the connector at one place replaced. -/
def put (s : World) (place : String × String) (config : Option Config) : World :=
  { s with connectors := Function.update s.connectors place config }

/-- What is answered to the store: a patch of the record is applied, and success reported. -/
def wire (s : World) : (q : Wire) → q.Reply → World → Prop
  | .api q, reply, s' => ∃ patch stored, q.method = .patch ∧ Store.Names s.record q.path ∧
      q.body = some patch ∧ s.stored.Applies patch stored ∧ s' = s.store stored ∧
      ∃ r, Api.judge Record.decoder reply = .ok r
  | .clock, _, s' => s' = s
  | .cluster _, _, _ => False

/-- What the neighbours answer, and the world after it.  The runtime status of a
connector reads as `runtimes` allows. -/
def answers (runtimes : Except ClusterError RuntimeStatus → Prop) (s : World) :
    (n : Neighbour) → n.Reply → World → Prop
  | .lookup host name, reply, s' => s' = s ∧
      reply = .ok (if (s.connectors (host, name)).isSome then .present else .absent)
  | .readConfig host name, reply, s' => s' = s ∧
      match s.connectors (host, name) with
      | some config => reply = .ok config
      | none => ∃ e : ClusterError, reply = .error e ∧ e.isNotFound = true
  | .readStatus _ _, reply, s' => s' = s ∧ runtimes reply
  | .create host config, reply, s' =>
      let place := (host, (config.get? nameKey).getD "")
      match s.connectors place with
      | some _ => s' = s ∧ ∃ e, reply = .error e
      | none => s' = s.put place (some config) ∧ reply = .ok ()
  | .update host name config, reply, s' =>
      s' = s.put (host, name) (some config) ∧ reply = .ok ()
  | .delete host name, reply, s' =>
      match s.connectors (host, name) with
      | some _ => s' = s.put (host, name) none ∧ reply = .ok ()
      | none => s' = s ∧ ∃ e : ClusterError, reply = .error e ∧ e.isNotFound = true
  | .addFinalizer r, reply, s' => Exec wire (Store.addFinalizer r) s reply s'
  | .removeFinalizer r, reply, s' => Exec wire (Store.removeFinalizer r) s reply s'
  | .patchStatus r status, reply, s' => Exec wire (Store.patchStatus r status) s reply s'
  | .clock, _, s' => s' = s

/-! ## Writing a record -/

variable {s s' : World} {r : Record}

/-- There is an answer that the store takes for success. -/
theorem exists_accepting : ∃ reply r, Api.judge Record.decoder reply = .ok r := by
  have hok : (Api.judge Record.decoder (.answer 200
      (.ofString
        "\x7b\"metadata\":\x7b\x7d,\"spec\":\x7b\"debeziumHost\":\"\",\"config\":\x7b\x7d\x7d\x7d")
      )).toBool = true := by
    decide +kernel
  generalize Api.Reply.answer 200 _ = reply at hok
  cases hreply : Api.judge Record.decoder reply with
  | ok r => exact ⟨reply, r, hreply⟩
  | error e =>
    rw [hreply] at hok
    cases hok

/-- A patch that can be applied is, and the store knows it. -/
theorem exec_patch_iff {part : String} {body : Json} {reply : Except StoreError Unit}
    (haddressable : r.Addressable) (hsame : Store.address s.record = Store.address r)
    (hpart : part = "" ∨ part = "/status") :
    Exec wire (Store.patch r part body) s reply s' ↔
      reply = .ok () ∧ ∃ stored, s.stored.Applies body stored ∧ s' = s.store stored := by
  obtain ⟨space, name, haddress, hrequest⟩ := Store.exists_request haddressable hpart
  obtain ⟨q, hq, hmethod, hbody, hnames⟩ := hrequest body
  rw [Store.patch_of_request haddress hq, Program.exec_ask_iff]
  constructor
  · rintro ⟨answer, s₁, hwire, hend⟩
    obtain ⟨patch, stored, -, -, hpatch, happlies, rfl, changed, hok⟩ := hwire
    obtain rfl := Option.some.inj (hbody.symm.trans hpatch)
    rw [hok] at hend
    obtain ⟨rfl, rfl⟩ := Program.exec_done_iff.1 hend
    exact ⟨rfl, stored, happlies, rfl⟩
  · rintro ⟨rfl, stored, happlies, rfl⟩
    obtain ⟨answer, changed, hok⟩ := exists_accepting
    refine ⟨answer, s.store stored,
      ⟨body, stored, hmethod, (Store.names_congr hsame).2 hnames, hbody, happlies, rfl, changed,
        hok⟩, ?_⟩
    rw [hok]
    exact .done _ _

end World

end ConnectorKeeper
