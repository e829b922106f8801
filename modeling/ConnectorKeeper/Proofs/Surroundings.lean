import ConnectorKeeper.Neighbour
import ConnectorKeeper.Proofs.Interleaving
import ConnectorKeeper.Proofs.RecordPatch
import ConnectorKeeper.Proofs.Targets

/-!
# What a pass finds around it

The record as the API server stores it, and the connectors of the clusters.  A
`Scene` holds both at one time, with all versions that the record has had.

`Scene.answers` says what the neighbours may answer.  They are trusted in one
thing: what is answered with success has happened, and a connector that is not
found is not there.  Whatever is answered with a failure may have happened all
the same, as when the answer is lost on its way.  Reading may be trusted too, or
not.

The store is asked over the wire.  The API server applies a patch to the record
as it is then, or nothing; that a version is checked first is not relied on.
-/

namespace ConnectorKeeper

/-! ## Clusters -/

/-- A connector as it is on its cluster. -/
structure Connector where
  /-- Its configuration. -/
  config : Config
  /-- Whether a pass over the record created it. -/
  ours : Bool

/-- The connectors of all clusters, by host and name. -/
abbrev Clusters := String → String → Option Connector

namespace Clusters

/-- The clusters with what is at one host and name replaced. -/
def set (c : Clusters) (host name : String) (x : Option Connector) : Clusters := fun h n =>
  if h = host ∧ n = name then x else c h n

@[simp] theorem set_self (c : Clusters) (host name : String) (x : Option Connector) :
    c.set host name x host name = x := by simp [set]

theorem set_of_ne {host name host' name' : String} (h : (host', name') ≠ (host, name))
    (c : Clusters) (x : Option Connector) : c.set host name x host' name' = c host' name' := by
  refine if_neg fun ⟨hhost, hname⟩ => h (by rw [hhost, hname])

end Clusters

/-! ## Scenes -/

/-- The record and the clusters at one time. -/
structure Scene where
  /-- The record, none if it is gone. -/
  stored : Option Record
  /-- All versions that the record has had. -/
  versions : List Record
  /-- The connectors. -/
  clusters : Clusters

namespace Scene

/-- Whether there is a connector that a pass over the record created. -/
def Ours (s : Scene) (host name : String) : Prop :=
  ∃ c, s.clusters host name = some c ∧ c.ours = true

/-- There is no connector that a pass over the record created. -/
def Clear (s : Scene) : Prop := ∀ host name, ¬ s.Ours host name

/-- The scene with a new version of the record. -/
def store (s : Scene) (r : Record) : Scene :=
  { s with stored := some r, versions := r :: s.versions }

/-- The scene with what is at one host and name replaced. -/
def put (s : Scene) (host name : String) (x : Option Connector) : Scene :=
  { s with clusters := s.clusters.set host name x }

theorem clusters_put_self (s : Scene) (host name : String) (x : Option Connector) :
    (s.put host name x).clusters host name = x := Clusters.set_self ..

theorem clusters_put_of_ne {host name host' name' : String} (h : (host', name') ≠ (host, name))
    (s : Scene) (x : Option Connector) :
    (s.put host name x).clusters host' name' = s.clusters host' name' :=
  Clusters.set_of_ne h ..

/-- A connector that is ours is ours where it is put. -/
theorem ours_put_self {s : Scene} {host name : String} {c : Connector} (h : c.ours = true) :
    (s.put host name (some c)).Ours host name := ⟨c, s.clusters_put_self .., h⟩

theorem not_ours_of_none {s : Scene} {host name : String} (h : s.clusters host name = none) :
    ¬ s.Ours host name := by
  rintro ⟨c, hc, -⟩
  rw [h] at hc
  cases hc

theorem clear_of_none {s : Scene} (h : ∀ host name, s.clusters host name = none) : s.Clear :=
  fun host name => not_ours_of_none (h host name)

/-- Elsewhere nothing changes. -/
theorem ours_put_of_ne {s : Scene} {host name host' name' : String} {x : Option Connector}
    (h : (host', name') ≠ (host, name)) :
    (s.put host name x).Ours host' name' ↔ s.Ours host' name' := by
  rw [Ours, Ours, clusters_put_of_ne h]

/-- Taking a connector away adds none. -/
theorem ours_of_put_none {s : Scene} {host name host' name' : String}
    (h : (s.put host name none).Ours host' name') : s.Ours host' name' := by
  by_cases heq : (host', name') = (host, name)
  · obtain ⟨rfl, rfl⟩ := Prod.mk.inj heq
    exact absurd h (not_ours_of_none (s.clusters_put_self ..))
  · exact (ours_put_of_ne heq).1 h

/-- Where no connector is ours, none is after a deletion. -/
theorem Clear.put_none {s : Scene} (hs : s.Clear) (host name : String) :
    (s.put host name none).Clear :=
  fun host' name' ho => hs host' name' (ours_of_put_none ho)

/-! ## The API server -/

/-- What the API server does on a request, and what comes back. -/
inductive Serves (s : Scene) (q : Api.Request) : Api.Reply → Scene → Prop
  /-- Nothing is done, and no success reported. -/
  | nothing {reply : Api.Reply} (h : ∀ r, Api.judge Record.decoder reply ≠ .ok r) :
      Serves s q reply s
  /-- The patch is applied, whatever comes back of it. -/
  | applied {reply : Api.Reply} {patch : Json} {r r' : Record} (hmethod : q.method = .patch)
      (hbody : q.body = some patch) (hstored : s.stored = some r)
      (hnames : Store.Names r q.path) (h : r.Patched patch r') :
      Serves s q reply (s.store r')

/-- What is answered on the wire to the store. -/
def wire (s : Scene) : (q : Wire) → q.Reply → Scene → Prop
  | .api q, reply, s' => s.Serves q reply s'
  | .clock, _, s' => s' = s
  | .cluster _, _, _ => False

/-! ## The neighbours -/

/-- A change that is made, whatever is said of it, or that is not made and said to
have failed. -/
def Changes (s changed : Scene) (reply : Except ClusterError Unit) (s' : Scene) : Prop :=
  s' = changed ∨ (s' = s ∧ reply ≠ .ok ())

/-- What the neighbours may answer, and the scene after it. -/
def answers (truthful : Bool) (s : Scene) : (n : Neighbour) → n.Reply → Scene → Prop
  | .lookup host name, reply, s' =>
      s' = s ∧ (truthful = true → ∀ p : Presence, reply = .ok p →
        (p = .present ↔ (s.clusters host name).isSome))
  | .readConfig host name, reply, s' =>
      s' = s ∧ (truthful = true → ∀ config, reply = .ok config →
        (s.clusters host name).map (·.config) = some config)
  | .readStatus _ _, _, s' => s' = s
  | .create host config, reply, s' =>
      s.Changes (s.put host ((config.get? nameKey).getD "") (some ⟨config, true⟩)) reply s'
  | .update host name config, reply, s' =>
      s.Changes (s.put host name
        (some ⟨config, ((s.clusters host name).map (·.ours)).getD true⟩)) reply s'
  | .delete host name, reply, s' =>
      s.Changes (s.put host name none) reply s' ∧
        ∀ e : ClusterError, reply = .error e → e.isNotFound = true →
          s'.clusters host name = none
  | .addFinalizer r, reply, s' => Program.Exec wire (Store.addFinalizer r) s reply s'
  | .removeFinalizer r, reply, s' => Program.Exec wire (Store.removeFinalizer r) s reply s'
  | .patchStatus r status, reply, s' =>
      Program.Exec wire (Store.patchStatus r status) s reply s'
  | .clock, _, s' => s' = s

/-! ## What the store makes of the record -/

/-- The scene is as before, or the record has a new version of the same spec and
deletion mark. -/
def Revises (s s' : Scene) (change : Record → Record → Prop) : Prop :=
  s' = s ∨ ∃ r r', s.stored = some r ∧ s' = s.store r' ∧ r'.spec = r.spec ∧
    r'.deletionRequested = r.deletionRequested ∧ change r r'

/-- A change of the record leaves the connectors. -/
theorem ours_revises {s s' : Scene} {change : Record → Record → Prop} {host name : String}
    (h : s.Revises s' change) : s'.Ours host name ↔ s.Ours host name := by
  rcases h with rfl | ⟨_, _, _, rfl, -⟩ <;> exact Iff.rfl

theorem Clear.revises {s s' : Scene} {change : Record → Record → Prop} (hs : s.Clear)
    (h : s.Revises s' change) : s'.Clear :=
  fun host name ho => hs host name ((ours_revises h).1 ho)

theorem judge_dropped {α : Type} (decoder : Json.Decoder α) (cause : String) :
    Api.judge decoder (.dropped cause) = .error (.service cause) := rfl

/-- An answer without a description of its error is read by its status. -/
theorem judge_missing {α : Type} (decoder : Json.Decoder α) :
    Api.judge decoder (.answer 404 (.ofString "")) =
      .error (.api ⟨"404 Not Found", "\"\"", "Failed to parse error data", 404⟩) := by
  cbv

/-- An exchange about a record applies a patch, or it does not and has failed. -/
theorem exec_exchange {s s' : Scene} {request : Except Api.Error Api.Request}
    {result : Except Api.Error Record}
    (h : Program.Exec wire (Api.exchange Record.decoder request) s result s') :
    (s' = s ∧ ∀ r, result ≠ .ok r) ∨
      ∃ q patch stored changed, request = .ok q ∧ q.body = some patch ∧
        s.stored = some stored ∧ stored.Patched patch changed ∧ s' = s.store changed := by
  cases request with
  | error e =>
    rw [Api.exchange] at h
    obtain ⟨rfl, rfl⟩ := Program.exec_done_iff.1 h
    exact .inl ⟨rfl, fun _ => nofun⟩
  | ok q =>
    rw [Api.exchange] at h
    obtain ⟨reply, s₁, hserves, hend⟩ := Program.exec_ask_iff.1 h
    obtain ⟨hresult, rfl⟩ := Program.exec_done_iff.1 hend
    rcases (show s.Serves q reply s' from hserves) with
      hnothing | ⟨_, hbody, hstored, -, hpatched⟩
    · exact .inl ⟨rfl, fun r hr => hnothing r (hresult.symm.trans hr)⟩
    · exact .inr ⟨q, _, _, _, rfl, hbody, hstored, hpatched, rfl⟩

/-- A patch is applied, or it is not and has failed. -/
theorem exec_patch {s s' : Scene} {r : Record} {part : String} {body : Json}
    {reply : Except StoreError Unit} (h : Program.Exec wire (Store.patch r part body) s reply s') :
    (s' = s ∧ reply ≠ .ok ()) ∨
      ∃ stored changed, s.stored = some stored ∧ stored.Patched body changed ∧
        s' = s.store changed := by
  unfold Store.patch at h
  split at h
  · obtain ⟨rfl, rfl⟩ := Program.exec_done_iff.1 h
    exact .inl ⟨rfl, nofun⟩
  · obtain ⟨result, s₁, hexchange, hend⟩ := Program.exec_bind_iff.1 h
    have hs : s' = s₁ ∧ (reply = .ok () → ∃ r, result = .ok r) := by
      cases result <;> obtain ⟨rfl, rfl⟩ := Program.exec_done_iff.1 hend
      · exact ⟨rfl, nofun⟩
      · exact ⟨rfl, fun _ => ⟨_, rfl⟩⟩
    obtain ⟨rfl, hreply⟩ := hs
    rcases exec_exchange hexchange with ⟨rfl, hresult⟩ | ⟨q, patch, r₀, r₁, hq, hbody, hrest⟩
    · refine .inl ⟨rfl, fun hok => ?_⟩
      obtain ⟨r', hr'⟩ := hreply hok
      exact hresult r' hr'
    · obtain rfl := Option.some.inj ((Api.body_of_objectRequest hq).symm.trans hbody)
      exact .inr ⟨r₀, r₁, hrest⟩

/-- Adding the finalizer keeps spec and deletion mark, and success means that it is there,
if it was missing. -/
theorem exec_addFinalizer {s s' : Scene} {r : Record} {reply : Except StoreError Unit}
    (h : Program.Exec wire (Store.addFinalizer r) s reply s') :
    (s' = s ∧ (reply = .ok () → r.finalizerPresent = true)) ∨
      ∃ stored changed, s.stored = some stored ∧ s' = s.store changed ∧
        changed.spec = stored.spec ∧ changed.deletionRequested = stored.deletionRequested ∧
        changed.finalizerPresent = true := by
  unfold Store.addFinalizer at h
  split at h
  · obtain ⟨rfl, rfl⟩ := Program.exec_done_iff.1 h
    exact .inl ⟨rfl, nofun⟩
  · split at h
    · next hpresent =>
      exact .inl ⟨(Program.exec_done_iff.1 h).2, fun _ => hpresent⟩
    · rcases exec_patch h with ⟨rfl, hfailed⟩ | ⟨stored, changed, hstored, hpatched, rfl⟩
      · exact .inl ⟨rfl, fun hok => absurd hok hfailed⟩
      · obtain ⟨hspec, hdeletion, hfinalizers⟩ := hpatched.of_finalizers
        refine .inr ⟨stored, changed, hstored, rfl, hspec, hdeletion, ?_⟩
        simp [Record.finalizerPresent, hfinalizers]

/-- Removing the finalizer keeps spec and deletion mark. -/
theorem exec_removeFinalizer {s s' : Scene} {r : Record} {reply : Except StoreError Unit}
    (h : Program.Exec wire (Store.removeFinalizer r) s reply s') :
    s.Revises s' fun _ _ => True := by
  obtain ⟨result, s₁, hpatch, hend⟩ := Program.exec_bind_iff.1 h
  obtain rfl : s' = s₁ := by
    cases result <;> exact (Program.exec_done_iff.1 hend).2
  rcases exec_patch hpatch with ⟨rfl, -⟩ | ⟨stored, changed, hstored, hpatched, rfl⟩
  · exact .inl rfl
  · obtain ⟨hspec, hdeletion, -⟩ := hpatched.of_finalizers
    exact .inr ⟨stored, changed, hstored, rfl, hspec, hdeletion, trivial⟩

/-- Setting the status keeps spec, deletion mark and finalizers. -/
theorem exec_patchStatus {s s' : Scene} {r : Record} {status : Status}
    {reply : Except StoreError Unit}
    (h : Program.Exec wire (Store.patchStatus r status) s reply s') :
    s.Revises s' fun stored changed => changed.finalizers = stored.finalizers := by
  rcases exec_patch h with ⟨rfl, -⟩ | ⟨stored, changed, hstored, hpatched, rfl⟩
  · exact .inl rfl
  · exact .inr ⟨stored, changed, hstored, rfl, hpatched.of_status⟩

/-- A patch that can be sent fails with what is answered, and is not applied. -/
theorem exec_patch_of_judge {r : Record} {space name part : String} {body : Json}
    {q : Api.Request} {reply : Api.Reply} {e : Api.Error}
    (haddress : Store.address r = .ok (space, name))
    (hrequest : Api.objectRequest .patch (Store.collection space) name part "" (some body) = .ok q)
    (hreply : Api.judge Record.decoder reply = .error e) (s : Scene) :
    Program.Exec wire (Store.patch r part body) s (.error (.api e)) s := by
  have hserves : s.wire (.api q) reply s := .nothing fun r hr => by
    rw [hreply] at hr
    cases hr
  have hexchange : Program.Exec wire (Api.exchange Record.decoder (.ok q)) s (.error e) s := by
    rw [Api.exchange, ← hreply]
    exact .ask hserves (.done _ s)
  simp only [Store.patch, haddress, hrequest]
  exact Program.exec_bind_iff.2 ⟨.error e, s, hexchange, .done _ s⟩

/-- A patch may fail. -/
theorem exists_exec_patch_error (s : Scene) (r : Record) (part : String) (body : Json) :
    ∃ e, Program.Exec wire (Store.patch r part body) s (.error e) s := by
  cases haddress : Store.address r with
  | error e =>
    simp only [Store.patch, haddress]
    exact ⟨e, .done _ s⟩
  | ok target =>
    cases hrequest : Api.objectRequest .patch (Store.collection target.1) target.2 part ""
      (some body) with
    | error e =>
      simp only [Store.patch, haddress, hrequest]
      exact ⟨_, Program.exec_bind_iff.2 ⟨.error e, s, .done _ s, .done _ s⟩⟩
    | ok q => exact ⟨_, exec_patch_of_judge haddress hrequest (judge_dropped Record.decoder "") s⟩

/-- A record may be said to be gone when its finalizer is taken off. -/
theorem exec_removeFinalizer_gone {r : Record} {space name : String}
    (haddress : Store.address r = .ok (space, name))
    (hrequest : ∀ body, ∃ q, Api.objectRequest .patch (Store.collection space) name "" ""
      (some body) = .ok q) (s : Scene) :
    Program.Exec wire (Store.removeFinalizer r) s (.ok ()) s := by
  obtain ⟨q, hq⟩ := hrequest (Store.finalizersPatch r (r.finalizers.filter (· ≠ finalizer)))
  have hpatch := exec_patch_of_judge haddress hq (judge_missing Record.decoder) s
  exact Program.exec_bind_iff.2 ⟨_, s, hpatch, .done _ s⟩

end Scene

end ConnectorKeeper
