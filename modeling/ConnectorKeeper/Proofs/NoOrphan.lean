import ConnectorKeeper.Proofs.History

/-!
# No orphan while the connector stays in its place

Whatever its owner does to a record, and whatever becomes of the requests of its
passes: as long as host and name of its connector stay the same, a connector
that a pass created is never without its record, and the record has our
finalizer (`stored_of_ours`).

Between two passes this is an invariant (`Guarded`).  Within a pass it takes more.
What is left of a live pass may create only while the finalizer is in the store,
which nobody takes off but a pass over a record that is being deleted; and such a
pass takes it off only after the connector is gone, when nobody creates it anew.
-/

namespace ConnectorKeeper

/-- The owner changes a record, but not where its connector is and not our
finalizer.  A deletion that was asked for stays so. -/
structure Record.EditedInPlace (r r' : Record) : Prop where
  host : r'.spec.host = r.spec.host
  name : r'.connectorName = r.connectorName
  finalizer : r'.finalizerPresent = r.finalizerPresent
  deletion : r.deletionRequested = true → r'.deletionRequested = true

theorem Record.EditedInPlace.place {r r' : Record} (h : r.EditedInPlace r') :
    r'.place = r.place := by
  rw [Record.place, Record.place, h.host, h.name]

/-- Owners who leave the connector of the record in its place. -/
def Rules.inPlace (truthful : Bool) : Rules := ⟨truthful, fun _ _ => Record.EditedInPlace⟩

namespace Scene

/-- The record is in the store with our finalizer. -/
def Held (s : Scene) : Prop := ∃ r, s.stored = some r ∧ r.finalizerPresent = true

/-- The record is the one of a place, and a connector of ours is there, with the
record held. -/
structure Guarded (place : Option (String × String)) (s : Scene) : Prop where
  named : ∀ r, s.stored = some r → r.place = place
  ours : ∀ host name, s.Ours host name → place = some (host, name)
  held : ∀ host name, s.Ours host name → s.Held

variable {place : Option (String × String)} {truthful : Bool} {inFlight : Option Record}
  {s s' : Scene} {r : Record}

/-! ## Beside a pass -/

theorem Held.beside (h : s.Held) (hstep : s.Beside (.inPlace truthful) inFlight s') : s'.Held := by
  obtain ⟨r, hstored, hpresent⟩ := h
  cases hstep with
  | edit hstored' hedit =>
    obtain rfl := Option.some.inj (hstored.symm.trans hstored')
    exact ⟨_, rfl, hedit.finalizer.trans hpresent⟩
  | collect hstored' _ hfree =>
    -- the finalizer keeps the record from being removed
    obtain rfl := Option.some.inj (hstored.symm.trans hstored')
    rw [Record.finalizerPresent, hfree] at hpresent
    cases hpresent

/-- What happens beside a pass leaves the scene guarded. -/
theorem Guarded.beside (h : s.Guarded place) (hstep : s.Beside (.inPlace truthful) inFlight s') :
    s'.Guarded place := by
  refine ⟨fun r hr => ?_, fun host name ho => h.ours host name ((ours_beside hstep).1 ho),
    fun host name ho => (h.held host name ((ours_beside hstep).1 ho)).beside hstep⟩
  cases hstep with
  | edit hstored hedit =>
    obtain rfl := Option.some.inj hr
    exact hedit.place.trans (h.named _ hstored)
  | collect => cases hr

/-! ## Within a pass -/

/-- A change of the record does so as long as it keeps holding what has a connector. -/
theorem Guarded.revises {change : Record → Record → Prop} (h : s.Guarded place)
    (hkept : (∃ host name, s.Ours host name) → s'.Held) (hrev : s.Revises s' change) :
    s'.Guarded place := by
  rcases hrev with rfl | ⟨stored, changed, hstored, rfl, hspec, -⟩
  · exact h
  · refine ⟨fun r hr => ?_, h.ours, fun host name ho => hkept ⟨host, name, ho⟩⟩
    obtain rfl := Option.some.inj hr
    exact (Record.place_congr hspec).trans (h.named _ hstored)

/-- No answer in a pass over a live record takes the guard away. -/
theorem Guarded.live_answer {n : Neighbour} {reply : n.Reply} (h : s.Guarded place) (hheld : s.Held)
    (hr : r.place = place) (hlive : r.deletionRequested = false) (hn : n.Concerns r)
    (hanswer : s.answers truthful n reply s') : s'.Guarded place ∧ s'.Held := by
  rcases cases_of_live_answer hn hlive hanswer with ⟨host, name, c, hplace, rfl⟩ | hrev
  · refine ⟨⟨h.named, fun host' name' ho => ?_, fun _ _ _ => hheld⟩, hheld⟩
    by_cases heq : (host', name') = (host, name)
    · rw [← hr, hplace, heq]
    · exact h.ours host' name' ((ours_put_of_ne heq).1 ho)
  · have hheld' : s'.Held := by
      rcases hrev with rfl | ⟨stored, changed, hstored, rfl, -, -, hpresent⟩
      · exact hheld
      · obtain ⟨r', hr', hpresent'⟩ := hheld
        obtain rfl := Option.some.inj (hr'.symm.trans hstored)
        exact ⟨changed, rfl, hpresent hpresent'⟩
    exact ⟨h.revises (fun _ => hheld') hrev, hheld'⟩

/-- The record may go: there is no connector of ours. -/
structure Free (place : Option (String × String)) (s : Scene) : Prop where
  named : ∀ r, s.stored = some r → r.place = place
  clear : s.Clear

theorem Free.guarded (h : s.Free place) : s.Guarded place :=
  ⟨h.named, fun host name ho => absurd ho (h.clear host name),
    fun host name ho => absurd ho (h.clear host name)⟩

theorem Free.beside (h : s.Free place) (hstep : s.Beside (.inPlace truthful) inFlight s') :
    s'.Free place :=
  ⟨(h.guarded.beside hstep).named, h.clear.beside hstep⟩

theorem Free.revises {change : Record → Record → Prop} (h : s.Free place)
    (hrev : s.Revises s' change) : s'.Free place :=
  ⟨(h.guarded.revises (fun ⟨host, name, ho⟩ => absurd ho (h.clear host name)) hrev).named,
    h.clear.revises hrev⟩

/-- Where no connector is, the pass over a deleting record makes none. -/
theorem Free.answer {n : Neighbour} {reply : n.Reply} (h : s.Free place)
    (hdeleting : r.deletionRequested = true) (hn : n.Concerns r)
    (hanswer : s.answers truthful n reply s') : s'.Free place := by
  rcases cases_of_deleting_answer hn hdeleting hanswer with ⟨host, name, _, rfl⟩ | hrev
  · exact ⟨h.named, h.clear.put_none host name⟩
  · exact h.revises hrev

/-- A connector that was deleted or not found leaves none of ours. -/
theorem Guarded.free_of_none {host name : String} (h : s.Guarded place)
    (hplace : place = some (host, name)) (hnone : s.clusters host name = none) :
    s.Free place := by
  refine ⟨h.named, fun host' name' ho => ?_⟩
  have heq := (h.ours host' name' ho).symm.trans hplace
  obtain ⟨rfl, rfl⟩ := Prod.mk.inj (Option.some.inj heq)
  exact not_ours_of_none hnone ho

/-- An answer to the deletion of the connector. -/
theorem Guarded.delete_answer {host name : String} {reply : Except ClusterError Unit}
    (h : s.Guarded place) (hplace : place = some (host, name))
    (hanswer : s.answers truthful (.delete host name) reply s') :
    s'.Guarded place ∧ (reply = .ok () → s'.Free place) ∧
      ∀ e, reply = .error e → e.isNotFound = true → s'.Free place := by
  obtain ⟨hchange, habsent⟩ := hanswer
  have hguarded : s'.Guarded place := by
    rcases hchange with rfl | ⟨rfl, -⟩
    · exact ⟨h.named, fun host' name' ho => h.ours host' name' (ours_of_put_none ho),
        fun host' name' ho => h.held host' name' (ours_of_put_none ho)⟩
    · exact h
  refine ⟨hguarded, fun hok => ?_, fun e he hmissing => ?_⟩
  · rcases hchange with rfl | ⟨-, hfailed⟩
    · exact hguarded.free_of_none hplace (s.clusters_put_self ..)
    · exact absurd hok hfailed
  · exact hguarded.free_of_none hplace (habsent e he hmissing)

end Scene

/-! ## Passes -/

section Passes

open Program Scene

/-- A connector that a pass created is never without its record. -/
def Demands.guarded (place : Option (String × String)) : Demands where
  keeps := Guarded place
  duty _ _ _ := True
  post _ _ _ := True

variable {place : Option (String × String)} {truthful : Bool} {s : Scene} {r : Record}

/-- A sync keeps the guard throughout. -/
theorem sync_guarded (resync : Duration) (hplace : r.place = place)
    (hlive : r.deletionRequested = false) (h : s.Guarded place) (hheld : s.Held) :
    (sync resync r).Throughout ((Demands.guarded place).terms (.inPlace truthful) r)
      ((Demands.guarded place).post r) s := by
  refine .of_onlyAsks (A := fun s => s.Guarded place ∧ s.Held) (sync_concerns resync hlive) ?_
    ⟨h, hheld⟩ (fun _ _ _ _ => trivial) ?_ (fun _ _ _ => trivial)
  · exact fun s s' hs hstep => ⟨hs.1.beside hstep, hs.2.beside hstep⟩
  · intro s n reply s' hs hn hanswer
    obtain ⟨hguarded, hheld⟩ := hs.1.live_answer hs.2 hplace hlive hn hanswer
    exact ⟨hguarded, hguarded, hheld⟩

/-- After the finalizer was registered, the record is held. -/
theorem ensure_guarded (habsent : r.finalizerPresent = false) (h : s.Guarded place) :
    (Finalizer.ensure r).Throughout ((Demands.guarded place).terms (.inPlace truthful) r)
      (fun s registered => s.Guarded place ∧ ∀ how, registered = .ok how → s.Held) s := by
  have hstable : ((Demands.guarded place).terms (.inPlace truthful) r).Stable (Guarded place) :=
    fun s s' hs hstep => hs.beside hstep
  unfold Finalizer.ensure
  rw [habsent]
  refine .ask_of_stable hstable h (fun _ _ => trivial) fun s reply s' hs hanswer => ?_
  have hguarded : s'.Guarded place ∧ (reply = .ok () → s'.Held) := by
    rcases exec_addFinalizer hanswer with ⟨rfl, hok⟩ | ⟨_, changed, hstored, rfl, hspec, hdel, hfin⟩
    · exact ⟨hs, fun hreply => absurd ((hok hreply).symm.trans habsent) (by decide)⟩
    · have hheld : (s.store changed).Held := ⟨changed, rfl, hfin⟩
      have hrev : s.Revises (s.store changed) fun _ _ => True :=
        .inr ⟨_, changed, hstored, rfl, hspec, hdel, trivial⟩
      exact ⟨hs.revises (fun _ => hheld) hrev, fun _ => hheld⟩
  refine ⟨hguarded.1, ?_⟩
  cases reply with
  | error e => exact .done_of_stable hstable hguarded.1 fun _ hs => ⟨hs, nofun⟩
  | ok u =>
    refine .done_of_stable (A := fun s => s.Guarded place ∧ s.Held) ?_
      ⟨hguarded.1, hguarded.2 rfl⟩ fun _ hs => ⟨hs.1, fun _ _ => hs.2⟩
    exact fun s s' hs hstep => ⟨hs.1.beside hstep, hs.2.beside hstep⟩

/-- Adopting holds the record before anything is created. -/
theorem adopt_guarded (resync : Duration) (hplace : r.place = place)
    (hlive : r.deletionRequested = false) (habsent : r.finalizerPresent = false)
    (h : s.Guarded place) :
    (adopt resync r).Throughout ((Demands.guarded place).terms (.inPlace truthful) r)
      ((Demands.guarded place).post r) s := by
  unfold adopt
  split
  · exact .done fun _ _ => trivial
  · refine .bind (ensure_guarded habsent h) fun s registered hs => ?_
    rcases registered with e | how
    · exact .done fun _ _ => trivial
    · exact sync_guarded resync hplace hlive hs.1 (hs.2 how rfl)

theorem letGo_guarded (hdeleting : r.deletionRequested = true) (known : Cleanup)
    (h : s.Free place) :
    (letGo r known).Throughout ((Demands.guarded place).terms (.inPlace truthful) r)
      ((Demands.guarded place).post r) s := by
  refine .of_onlyAsks (A := Free place) (letGo_concerns hdeleting known)
    (fun _ _ hs hstep => hs.beside hstep) h (fun _ _ _ _ => trivial) ?_ (fun _ _ _ => trivial)
  intro s n reply s' hs hn hanswer
  have hfree := hs.answer hdeleting hn hanswer
  exact ⟨hfree.guarded, hfree⟩

/-- A cleanup frees the place before it lets the record go. -/
theorem cleanup_guarded (hplace : r.place = place) (hdeleting : r.deletionRequested = true)
    (h : s.Guarded place) :
    (cleanup r).Throughout ((Demands.guarded place).terms (.inPlace truthful) r)
      ((Demands.guarded place).post r) s := by
  have hstable : ((Demands.guarded place).terms (.inPlace truthful) r).Stable (Guarded place) :=
    fun s s' hs hstep => hs.beside hstep
  unfold cleanup
  split
  · split
    · next hname =>
      refine letGo_guarded hdeleting _ ⟨h.named, fun host name ho => ?_⟩
      have hat := hplace.trans (h.ours host name ho)
      rw [Record.place, hname] at hat
      cases hat
    · next name hname =>
      have hat : place = some (r.spec.host, name) :=
        hplace.symm.trans (r.place_of_connectorName hname)
      refine .ask_of_stable hstable h (fun _ _ => trivial) fun s reply s' hs hanswer => ?_
      have hdelete : s.answers truthful (.delete r.spec.host name) reply s' := hanswer
      obtain ⟨hguarded, hdeleted, hmissing⟩ := hs.delete_answer hat hdelete
      refine ⟨hguarded, ?_⟩
      cases reply with
      | ok u => exact letGo_guarded hdeleting _ (hdeleted rfl)
      | error e =>
        dsimp only
        split
        · next hfound => exact letGo_guarded hdeleting _ (hmissing e rfl hfound)
        · exact .done fun _ _ => trivial
  · exact .done fun _ _ => trivial

/-- Every pass keeps the guard throughout. -/
theorem pass_guarded (resync : Duration) (h : s.Guarded place) (hstored : s.stored = some r) :
    (pass resync r).Throughout ((Demands.guarded place).terms (.inPlace truthful) r)
      ((Demands.guarded place).post r) s := by
  have hplace : r.place = place := h.named r hstored
  unfold pass Record.lifecycle
  cases hdeleting : r.deletionRequested with
  | true => exact cleanup_guarded hplace hdeleting h
  | false =>
    cases hpresent : r.finalizerPresent with
    | true => exact sync_guarded resync hplace hdeleting h ⟨r, hstored, hpresent⟩
    | false => exact adopt_guarded resync hplace hdeleting hpresent h

end Passes

/-- At all moments a connector of ours is at the place of the record, which is held. -/
theorem Moment.guarded_of_leads {place : Option (String × String)} {truthful : Bool} {s : Scene}
    {m : Moment} (h₀ : s.Guarded place) (h : Moment.Leads (.inPlace truthful) ⟨s, none⟩ m) :
    m.scene.Guarded place :=
  (@Moment.leads_sound _ (.guarded place) (fun _ _ _ hs hstep => hs.beside hstep)
    (fun resync _ _ hs hstored => pass_guarded resync hs hstored) _ _ h₀ h).1

/-- While the connector of a record stays in its place, one that a pass created is
there only with the record, which names it and has our finalizer. -/
theorem stored_of_ours {truthful : Bool} {s : Scene} {m : Moment}
    (hclear : s.Clear) (h : Moment.Leads (.inPlace truthful) ⟨s, none⟩ m)
    {host name : String} (hours : m.scene.Ours host name) :
    ∃ r, m.scene.stored = some r ∧ r.finalizerPresent = true ∧ r.spec.host = host ∧
      r.connectorName = some name := by
  have h₀ : s.Guarded (s.stored.bind Record.place) := by
    refine Scene.Free.guarded ⟨fun r hr => ?_, hclear⟩
    rw [hr]
    rfl
  have hm := Moment.guarded_of_leads h₀ h
  obtain ⟨r, hr, hpresent⟩ := hm.held host name hours
  have hplace := (hm.named r hr).trans (hm.ours host name hours)
  refine ⟨r, hr, hpresent, ?_⟩
  obtain ⟨name', hname', heq⟩ := Option.map_eq_some_iff.1 hplace
  obtain ⟨rfl, rfl⟩ := Prod.mk.inj heq
  exact ⟨rfl, hname'⟩

/-- A connector that a pass has just created, of a record that is held. -/
theorem stored_of_ours_orders :
    let r : Record := ⟨{ Metadata.empty with finalizers := some [finalizer] },
      ⟨"http://dbz:8083", .ofList [("name", "orders")]⟩, none⟩
    ∃ m, Moment.Leads (.inPlace true) ⟨⟨some r, [r], fun _ _ => none⟩, none⟩ m ∧
      m.scene.Ours "http://dbz:8083" "orders" ∧
      ∃ r', m.scene.stored = some r' ∧ r'.finalizerPresent = true ∧
        r'.spec.host = "http://dbz:8083" ∧ r'.connectorName = some "orders" := by
  intro r
  have hclear : Scene.Clear ⟨some r, [r], fun _ _ => none⟩ := Scene.clear_of_none fun _ _ => rfl
  have hlead := @Moment.leads_create ⟨some r, [r], fun _ _ => none⟩ r (.inPlace true)
    ⟨0, by decide⟩ "orders" rfl rfl (by decide +kernel) (by cbv) rfl
  exact ⟨_, hlead, Scene.ours_put_self rfl,
    stored_of_ours hclear hlead (Scene.ours_put_self rfl)⟩

end ConnectorKeeper
