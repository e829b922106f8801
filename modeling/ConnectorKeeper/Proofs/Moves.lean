import ConnectorKeeper.Proofs.Admitted

/-!
# Records that move

A record moves when its owner changes the host or the name of its connector.
Passes know only where the record says the connector is when they start.  So the
connectors of a record are where one of its versions was (`Scattered`), the one
at a place it has left stays there (`Left`), and a pass that deletes takes away
the connector at the last place only.

`moved_connectors` puts this together.  A record that never moves has its
connector at its place, and none once it is deleted.  `rename_leaves_connector`
is a history in which a renamed record leaves a connector behind.
-/

namespace ConnectorKeeper

/-- Such owners who never move the record to a place. -/
def Rules.away (truthful : Bool) (host name : String) : Rules :=
  ⟨truthful, fun _ _ r r' => r.OwnerAct r' ∧ r'.place ≠ some (host, name)⟩

namespace Scene

/-- Every connector of ours is where some version of the record is, and the stored
record is a version. -/
structure Scattered (s : Scene) : Prop where
  current : ∀ r, s.stored = some r → r ∈ s.versions
  ours : ∀ host name, s.Ours host name → ∃ v ∈ s.versions, v.place = some (host, name)

/-- A connector of ours is at a place, and the record is elsewhere. -/
structure Left (host name : String) (s : Scene) : Prop where
  ours : s.Ours host name
  elsewhere : ∀ r, s.stored = some r → r.place ≠ some (host, name)

variable {truthful : Bool} {inFlight : Option Record} {s s' : Scene} {r : Record} {n : Neighbour}
  {reply : n.Reply} {host name : String}

/-! ## Versions -/

theorem mem_versions_beside {rules : Rules} (h : r ∈ s.versions)
    (hstep : s.Beside rules inFlight s') : r ∈ s'.versions := by
  cases hstep with
  | edit => exact List.mem_cons_of_mem _ h
  | collect => exact h

theorem mem_versions_revises {change : Record → Record → Prop} (h : r ∈ s.versions)
    (hrev : s.Revises s' change) : r ∈ s'.versions := by
  rcases hrev with rfl | ⟨_, _, _, rfl, -⟩
  · exact h
  · exact List.mem_cons_of_mem _ h

/-! ## Connectors are at the places of versions -/

theorem Scattered.beside {rules : Rules} (h : s.Scattered) (hstep : s.Beside rules inFlight s') :
    s'.Scattered := by
  refine ⟨fun r hr => ?_, fun host name ho => ?_⟩
  · cases hstep with
    | edit =>
      obtain rfl := Option.some.inj hr
      exact List.mem_cons_self
    | collect => cases hr
  · obtain ⟨v, hv, hplace⟩ := h.ours host name ((ours_beside hstep).1 ho)
    exact ⟨v, mem_versions_beside hv hstep, hplace⟩

theorem Scattered.revises {change : Record → Record → Prop} (h : s.Scattered)
    (hrev : s.Revises s' change) : s'.Scattered := by
  refine ⟨fun r hr => ?_, fun host name ho => ?_⟩
  · rcases hrev with rfl | ⟨_, _, _, rfl, -⟩
    · exact h.current r hr
    · obtain rfl := Option.some.inj hr
      exact List.mem_cons_self
  · obtain ⟨v, hv, hplace⟩ := h.ours host name ((ours_revises hrev).1 ho)
    exact ⟨v, mem_versions_revises hv hrev, hplace⟩

theorem Scattered.answer (h : s.Scattered) (hr : r ∈ s.versions) (hn : n.Concerns r)
    (hanswer : s.answers truthful n reply s') : s'.Scattered ∧ r ∈ s'.versions := by
  cases hdeleting : r.deletionRequested with
  | false =>
    rcases cases_of_live_answer hn hdeleting hanswer with ⟨host, name, c, hplace, rfl⟩ | hrev
    · refine ⟨⟨h.current, fun host' name' ho => ?_⟩, hr⟩
      by_cases heq : (host', name') = (host, name)
      · exact ⟨r, hr, by rw [hplace, heq]⟩
      · exact h.ours host' name' ((ours_put_of_ne heq).1 ho)
    · exact ⟨h.revises hrev, mem_versions_revises hr hrev⟩
  | true =>
    rcases cases_of_deleting_answer hn hdeleting hanswer with ⟨host, name, hplace, rfl⟩ | hrev
    · exact ⟨⟨h.current, fun host' name' ho => h.ours host' name' (ours_of_put_none ho)⟩, hr⟩
    · exact ⟨h.revises hrev, mem_versions_revises hr hrev⟩

/-! ## A place that the record has left -/

theorem Left.beside (h : s.Left host name)
    (hstep : s.Beside (.away truthful host name) inFlight s') : s'.Left host name := by
  refine ⟨(ours_beside hstep).2 h.ours, fun r hr => ?_⟩
  cases hstep with
  | edit _ hedit =>
    obtain rfl := Option.some.inj hr
    exact hedit.2
  | collect => cases hr

theorem Left.revises {change : Record → Record → Prop} (h : s.Left host name)
    (hrev : s.Revises s' change) : s'.Left host name := by
  refine ⟨(ours_revises hrev).2 h.ours, fun r hr => ?_⟩
  rcases hrev with rfl | ⟨_, _, hstored, rfl, hspec, -⟩
  · exact h.elsewhere r hr
  · obtain rfl := Option.some.inj hr
    rw [Record.place_congr hspec]
    exact h.elsewhere _ hstored

/-- A pass over the record elsewhere does not touch the connector. -/
theorem Left.answer (h : s.Left host name) (hr : r.place ≠ some (host, name))
    (hn : n.Concerns r) (hanswer : s.answers truthful n reply s') : s'.Left host name := by
  have hput (host' name' : String) (x : Option Connector) (hplace : r.place = some (host', name')) :
      (s.put host' name' x).Left host name := by
    have hne : (host, name) ≠ (host', name') := fun heq => hr (by rw [hplace, heq])
    exact ⟨(ours_put_of_ne hne).2 h.ours, h.elsewhere⟩
  cases hdeleting : r.deletionRequested with
  | false =>
    rcases cases_of_live_answer hn hdeleting hanswer with ⟨_, _, _, hplace, rfl⟩ | hrev
    · exact hput _ _ _ hplace
    · exact h.revises hrev
  | true =>
    rcases cases_of_deleting_answer hn hdeleting hanswer with ⟨_, _, hplace, rfl⟩ | hrev
    · exact hput _ _ _ hplace
    · exact h.revises hrev

end Scene

/-! ## Passes -/

section Passes

open Program Scene

/-- Connectors are at the places of versions, and a pass that has deleted leaves none
of ours at the place of its record. -/
def Demands.scattered : Demands where
  keeps := Scattered
  duty _ _ _ := True
  post r s result := r ∈ s.versions ∧
    (r.deletionRequested = true → r.finalizerPresent = true → ∀ o host name,
      result = .ok o → r.place = some (host, name) → ¬ s.Ours host name)

variable {truthful : Bool} {rules : Rules} {s : Scene} {r : Record} {host name : String}

theorem stable_scattered :
    (Demands.scattered.terms rules r).Stable fun s => s.Scattered ∧ r ∈ s.versions :=
  fun _ _ hs hstep => ⟨hs.1.beside hstep, mem_versions_beside hs.2 hstep⟩

theorem letGo_scattered (hdeleting : r.deletionRequested = true) (known : Cleanup)
    (h : s.Scattered ∧ r ∈ s.versions) (hplace : r.place = some (host, name))
    (hgone : ¬ s.Ours host name) :
    (letGo r known).Throughout (Demands.scattered.terms rules r) (Demands.scattered.post r) s := by
  refine .of_onlyAsks (A := fun s => (s.Scattered ∧ r ∈ s.versions) ∧ ¬ s.Ours host name)
    (letGo_concerns hdeleting known) ?_ ⟨h, hgone⟩ (fun _ _ _ _ => trivial) ?_ ?_
  · exact fun s s' hs hstep =>
      ⟨stable_scattered s s' hs.1 hstep, fun ho => hs.2 ((ours_beside hstep).1 ho)⟩
  · intro s n reply s' hs hn hanswer
    have hkept := hs.1.1.answer hs.1.2 hn hanswer
    exact ⟨hkept.1, hkept, fun ho => hs.2 (ours_of_deleting_answer hn hdeleting hanswer ho)⟩
  · intro s result hs
    refine ⟨hs.1.2, fun _ _ o host' name' _ hplace' => ?_⟩
    obtain ⟨rfl, rfl⟩ := Prod.mk.inj (Option.some.inj (hplace.symm.trans hplace'))
    exact hs.2

theorem cleanup_scattered (hdeleting : r.deletionRequested = true)
    (hpresent : r.finalizerPresent = true) (hname : r.connectorName = some name)
    (h : s.Scattered ∧ r ∈ s.versions) :
    (cleanup r).Throughout (Demands.scattered.terms rules r) (Demands.scattered.post r) s := by
  have hplace := r.place_of_connectorName hname
  simp only [cleanup, hpresent, hname, if_true]
  refine .ask_of_stable stable_scattered h (fun _ _ => trivial) fun s reply s' hs hanswer => ?_
  have hdelete : s.answers rules.truthful (.delete r.spec.host name) reply s' := hanswer
  have hconcerns : (Neighbour.delete r.spec.host name).Concerns r := ⟨rfl, hname, hdeleting⟩
  have hkept := hs.1.answer hs.2 hconcerns hdelete
  refine ⟨hkept.1, ?_⟩
  obtain ⟨hchange, habsent⟩ := hdelete
  cases reply with
  | ok u =>
    refine letGo_scattered hdeleting _ hkept hplace (not_ours_of_none ?_)
    rcases hchange with rfl | ⟨-, hfailed⟩
    · exact s.clusters_put_self ..
    · exact absurd rfl hfailed
  | error e =>
    dsimp only
    split
    · next hfound =>
      exact letGo_scattered hdeleting _ hkept hplace (not_ours_of_none (habsent e rfl hfound))
    · refine .done_of_stable stable_scattered hkept fun _ hs => ⟨hs.2, fun _ _ _ _ _ hok => ?_⟩
      cases hok

theorem pass_scattered (resync : Duration) (h : s.Scattered) (hstored : s.stored = some r) :
    (pass resync r).Throughout (Demands.scattered.terms rules r) (Demands.scattered.post r) s := by
  have hr : r ∈ s.versions := h.current r hstored
  by_cases hcleans : r.deletionRequested = true ∧ r.finalizerPresent = true ∧
      r.connectorName.isSome = true
  · obtain ⟨hdeleting, hpresent, hname⟩ := hcleans
    obtain ⟨name, hname⟩ := Option.isSome_iff_exists.1 hname
    have hpass : pass resync r = cleanup r := by
      simp only [pass, Record.lifecycle, hdeleting, if_true]
    rw [hpass]
    exact cleanup_scattered hdeleting hpresent hname ⟨h, hr⟩
  · -- any other pass has nothing to say of its result
    refine .of_onlyAsks (pass_concerns resync r) stable_scattered ⟨h, hr⟩
      (fun _ _ _ _ => trivial) ?_ ?_
    · intro s n reply s' hs hn hanswer
      have hkept := hs.1.answer hs.2 hn hanswer
      exact ⟨hkept.1, hkept⟩
    · intro s result hs
      refine ⟨hs.2, fun hdeleting hpresent o host name _ hplace => absurd ?_ hcleans⟩
      refine ⟨hdeleting, hpresent, ?_⟩
      obtain ⟨name, hname, -⟩ := Option.map_eq_some_iff.1 hplace
      rw [hname]
      rfl

end Passes

/-! ## Histories -/

namespace Moment

variable {truthful : Bool} {rules : Rules} {s : Scene} {m : Moment} {host name : String}

theorem met_scattered (h₀ : s.Scattered) (h : Leads rules ⟨s, none⟩ m) :
    Demands.scattered.Met rules m :=
  leads_sound (fun _ _ _ (hs : Scene.Scattered _) hstep => hs.beside hstep)
    (fun resync _ _ hs hstored => pass_scattered resync hs hstored) h₀ h

/-- What is left of a pass asks about its record only, as the whole pass does. -/
theorem concerns_of_next {m m' : Moment} (hnext : Next rules m m')
    (h : ∀ r p, m.running = some (r, p) → p.OnlyAsks (·.Concerns r)) :
    ∀ r p, m'.running = some (r, p) → p.OnlyAsks (·.Concerns r) := by
  cases hnext with
  | beside => exact h
  | start resync hstored =>
    intro r p hp
    obtain ⟨rfl, rfl⟩ := Prod.mk.inj (Option.some.inj hp)
    exact pass_concerns resync _
  | answer _ =>
    intro r p hp
    obtain ⟨rfl, rfl⟩ := Prod.mk.inj (Option.some.inj hp)
    exact (Program.onlyAsks_of_ask (h _ _ rfl)).2 _
  | stop => exact fun _ _ => nofun

theorem concerns_of_leads (h : Leads rules ⟨s, none⟩ m) :
    ∀ r p, m.running = some (r, p) → p.OnlyAsks (·.Concerns r) := by
  induction h with
  | refl => exact fun _ _ => nofun
  | tail _ hnext ih => exact concerns_of_next hnext ih

/-- A place is left by the record as it is stored, and by the one that the pass in flight
has started from. -/
structure Left (host name : String) (m : Moment) : Prop where
  scene : m.scene.Left host name
  inFlight : ∀ r p, m.running = some (r, p) →
    r.place ≠ some (host, name) ∧ p.OnlyAsks (·.Concerns r)

theorem Left.next {m m' : Moment} (h : m.Left host name)
    (hnext : Next (.away truthful host name) m m') : m'.Left host name := by
  obtain ⟨hscene, hinFlight⟩ := h
  cases hnext with
  | beside hstep => exact ⟨hscene.beside hstep, hinFlight⟩
  | start resync hstored =>
    refine ⟨hscene, fun r p hp => ?_⟩
    obtain ⟨rfl, rfl⟩ := Prod.mk.inj (Option.some.inj hp)
    exact ⟨hscene.elsewhere _ hstored, pass_concerns resync _⟩
  | answer hanswer =>
    obtain ⟨hr, hasks⟩ := hinFlight _ _ rfl
    obtain ⟨hconcerns, hnext⟩ := Program.onlyAsks_of_ask hasks
    refine ⟨hscene.answer hr hconcerns hanswer, fun r p hp => ?_⟩
    obtain ⟨rfl, rfl⟩ := Prod.mk.inj (Option.some.inj hp)
    exact ⟨hr, hnext _⟩
  | stop => exact ⟨hscene, fun _ _ => nofun⟩

/-- A connector stays at a place that the record has left and does not come back to. -/
theorem Left.leads {m m' : Moment} (h : m.Left host name)
    (hleads : Leads (.away truthful host name) m m') : m'.Left host name := by
  induction hleads with
  | refl => exact h
  | tail _ hnext ih => exact ih.next hnext

/-! ## What can happen -/

variable {r r' : Record} {name' : String}

/-- A record that is held can be moved and have a connector at both places, after a
successful pass over it at the second. -/
theorem leads_moved (truthful : Bool) (resync : Duration) (hstored : s.stored = some r)
    (hlive : r.deletionRequested = false) (hpresent : r.finalizerPresent = true)
    (hname : r.connectorName = some name) (habsent : s.clusters r.spec.host name = none)
    (hedit : r.OwnerAct r') (hlive' : r'.deletionRequested = false)
    (hpresent' : r'.finalizerPresent = true) (hname' : r'.connectorName = some name')
    (habsent' : s.clusters r'.spec.host name' = none)
    (hne : (r'.spec.host, name') ≠ (r.spec.host, name)) :
    ∃ s', Leads (.owned truthful) ⟨s, none⟩
        ⟨s', some (r', .done (.ok ⟨.create, some resync⟩))⟩ ∧
      s'.stored = some r' ∧ s'.versions = r' :: s.versions ∧
      s'.Ours r.spec.host name ∧ s'.Ours r'.spec.host name' := by
  let s₁ := s.put r.spec.host name (some ⟨r.spec.config, true⟩)
  let s₂ := s₁.store r'
  have habsent₂ : s₂.clusters r'.spec.host name' = none :=
    (Scene.clusters_put_of_ne hne s _).trans habsent'
  have hfirst := leads_create (.owned truthful) resync hstored hlive hpresent hname habsent
  have hmove : Leads (.owned truthful) ⟨s₁, none⟩ ⟨s₂, none⟩ :=
    .single (.beside (.edit hstored hedit))
  have hsecond := leads_create (.owned truthful) resync (s := s₂) rfl hlive' hpresent' hname'
    habsent₂
  refine ⟨_, ((hfirst.tail .stop).trans hmove).trans hsecond, rfl, rfl, ?_, ?_⟩
  · exact (Scene.ours_put_of_ne hne.symm).2 (Scene.ours_put_self rfl)
  · exact Scene.ours_put_self rfl

/-- The removal of a record can be asked for, and its connector be deleted. -/
theorem leads_removed (rules : Rules) (resync : Duration) (t : Timestamp)
    (hstored : s.stored = some r) (hpresent : r.finalizerPresent = true)
    (hname : r.connectorName = some name) (hedit : rules.edits none s r (r.marked t))
    (hgone : ∀ s : Scene, Program.Exec Scene.wire (Store.removeFinalizer (r.marked t)) s
      (.ok ()) s) :
    Leads rules ⟨s, none⟩ ⟨(s.store (r.marked t)).put r.spec.host name none,
      some (r.marked t, .done (.ok ⟨.delete, none⟩))⟩ := by
  have hmark : Leads rules ⟨s, none⟩ ⟨s.store (r.marked t), none⟩ :=
    .single (.beside (.edit hstored hedit))
  exact hmark.trans (leads_cleanup rules resync (s := s.store (r.marked t)) (r := r.marked t)
    rfl rfl hpresent hname hgone)

end Moment

/-- Where the connectors are that passes over a record created: at places of versions,
none where a pass has just deleted, and still there where the record has left and no pass
in flight started before it did.  Those of a record that was never moved are at its
place. -/
theorem moved_connectors {truthful : Bool} {s : Scene} {m : Moment}
    (hclear : s.Clear) (hcurrent : ∀ r, s.stored = some r → r ∈ s.versions)
    (h : Moment.Leads (.owned truthful) ⟨s, none⟩ m) :
    (∀ host name, m.scene.Ours host name → ∃ v ∈ m.scene.versions, v.place = some (host, name)) ∧
    (∀ r o host name, m.running = some (r, .done (.ok o)) → r.deletionRequested = true →
      r.finalizerPresent = true → r.place = some (host, name) → ¬ m.scene.Ours host name) ∧
    (∀ host name m', m.scene.Ours host name →
      (∀ r p, m.running = some (r, p) → r.place ≠ some (host, name)) →
      (∀ r, m.scene.stored = some r → r.place ≠ some (host, name)) →
      Moment.Leads (.away truthful host name) m m' → m'.scene.Ours host name) ∧
    ∀ p r o, (∀ v ∈ m.scene.versions, v.place = p) → m.running = some (r, .done (.ok o)) →
      (∀ host name, m.scene.Ours host name → r.place = some (host, name)) ∧
      (r.deletionRequested = true → r.finalizerPresent = true → m.scene.Clear) := by
  have h₀ : s.Scattered := ⟨hcurrent, fun host name ho => absurd ho (hclear host name)⟩
  obtain ⟨hscattered, hpasses⟩ := Moment.met_scattered h₀ h
  have hends (r : Record) (o : Outcome) (hrunning : m.running = some (r, .done (.ok o))) :=
    (hpasses r _ hrunning).post_of_done
  refine ⟨hscattered.ours, ?_, ?_, ?_⟩
  · intro r o host name hrunning hdeleting hpresent hplace
    exact (hends r o hrunning).2 hdeleting hpresent o host name rfl hplace
  · intro host name m' hours hinFlight helsewhere hlead
    have hasks := Moment.concerns_of_leads h
    have hleft : m.Left host name :=
      ⟨⟨hours, helsewhere⟩, fun r p hp => ⟨hinFlight r p hp, hasks r p hp⟩⟩
    exact (hleft.leads hlead).scene.ours
  · intro p r o hsame hrunning
    obtain ⟨hr, hdeleted⟩ := hends r o hrunning
    have hplace (host name : String) (ho : m.scene.Ours host name) :
        r.place = some (host, name) := by
      obtain ⟨v, hv, hat⟩ := hscattered.ours host name ho
      rw [hsame r hr, ← hsame v hv, hat]
    refine ⟨hplace, fun hdeleting hpresent host name ho => ?_⟩
    exact hdeleted hdeleting hpresent o host name rfl (hplace host name ho) ho

/-- A record that is renamed, marked for removal and cleaned up, and one that is not
renamed before. -/
theorem moved_connectors_orders :
    let host := "http://dbz:8083"
    let r (name : String) : Record :=
      ⟨{ Metadata.empty with
          finalizers := some [finalizer], namespaceName := some "default", name := some "orders" },
        ⟨host, .ofList [("connector.class", "C"), ("name", name)]⟩, none⟩
    let s : Scene := ⟨some (r "c1"), [r "c1"], fun _ _ => none⟩
    let gone (name : String) : Record × Step Outcome :=
      ((r name).marked ⟨0, 0⟩, .done (.ok ⟨.delete, none⟩))
    let created (name : String) : Record × Step Outcome :=
      (r name, .done (.ok ⟨.create, some ⟨0, by decide⟩⟩))
    ∃ s₁ s₂ s₃, Moment.Leads (.owned true) ⟨s, none⟩ ⟨s₁, some (created "c2")⟩ ∧
      s₁.Ours host "c1" ∧
      Moment.Leads (.away true host "c1") ⟨s₁, some (created "c2")⟩ ⟨s₂, some (gone "c2")⟩ ∧
      s₂.Ours host "c1" ∧ (∃ v ∈ s₂.versions, v.place = some (host, "c1")) ∧
      ¬ s₂.Ours host "c2" ∧
      Moment.Leads (.owned true) ⟨s, none⟩ ⟨s₃, some (gone "c1")⟩ ∧
      s₃.Clear := by
  intro host r s gone created
  have hclear : s.Clear := Scene.clear_of_none fun _ _ => rfl
  have hcurrent : ∀ r, s.stored = some r → r ∈ s.versions := fun _ h => by
    obtain rfl := Option.some.inj h
    exact List.mem_singleton.2 rfl
  have hedit : (r "c1").OwnerAct (r "c2") := .update <| Record.updated_of_validated rfl <|
    Record.mayEnd_validated_dbz rfl (by decide +kernel) (by decide +kernel)
  have hname₁ : (r "c1").connectorName = some "c1" := by decide +kernel
  have hname₂ : (r "c2").connectorName = some "c2" := by decide +kernel
  have hgone (name : String) (s : Scene) : Program.Exec Scene.wire
      (Store.removeFinalizer ((r name).marked ⟨0, 0⟩)) s (.ok ()) s :=
    @Scene.exec_removeFinalizer_gone _ "default" "orders" rfl (fun body => ⟨_, by cbv⟩) s
  have hmark (name : String) : (r name).OwnerAct ((r name).marked ⟨0, 0⟩) := .mark _
  have hne : ((r "c2").spec.host, "c2") ≠ ((r "c1").spec.host, "c1") :=
    fun h => absurd (Prod.mk.inj h).2 (by decide)
  have hat : ((r "c1").marked ⟨0, 0⟩).place = some (host, "c1") :=
    Record.place_of_connectorName hname₁
  have hat₂ : ((r "c2").marked ⟨0, 0⟩).place = some (host, "c2") :=
    Record.place_of_connectorName hname₂
  have helsewhere : some (host, "c2") ≠ some (host, "c1") :=
    fun h => hne (Option.some.inj h)
  -- renamed
  obtain ⟨s₁, hmoved, hstored₁, -, hours₁, -⟩ := Moment.leads_moved true ⟨0, by decide⟩
    (s := s) rfl rfl (by decide +kernel) hname₁ rfl hedit rfl (by decide +kernel) hname₂ rfl hne
  have haway := Moment.leads_removed (.away true host "c1") ⟨0, by decide⟩ ⟨0, 0⟩ hstored₁
    (by decide +kernel) hname₂ ⟨hmark "c2", by rw [hat₂]; exact helsewhere⟩ (hgone "c2")
  have hremoved := Moment.leads_removed (.owned true) ⟨0, by decide⟩ ⟨0, 0⟩ hstored₁
    (by decide +kernel) hname₂ (hmark "c2") (hgone "c2")
  obtain ⟨hplaces, hdeleted, -, -⟩ :=
    moved_connectors hclear hcurrent ((hmoved.tail .stop).trans hremoved)
  obtain ⟨-, -, hleft, -⟩ := moved_connectors hclear hcurrent hmoved
  have haway₂ : Record.place (r "c2") ≠ some (host, "c1") := by
    rw [Record.place_of_connectorName hname₂]
    exact helsewhere
  have hours₂ := hleft host "c1" _ hours₁ (fun r' p hr' => by
    obtain ⟨rfl, -⟩ := Prod.mk.inj (Option.some.inj hr')
    exact haway₂) (fun r' hr' => by
    obtain rfl := Option.some.inj (hstored₁.symm.trans hr')
    exact haway₂) (.head .stop haway)
  -- not renamed
  have hcreated := (Moment.leads_create (.owned true) ⟨0, by decide⟩ (s := s) rfl rfl
    (by decide +kernel) hname₁ rfl).tail .stop
  have hended := Moment.leads_removed (.owned true) ⟨0, by decide⟩ ⟨0, 0⟩ (r := r "c1")
    (s := s.put host "c1" (some ⟨(r "c1").spec.config, true⟩)) rfl (by decide +kernel) hname₁
    (hmark "c1") (hgone "c1")
  obtain ⟨-, -, -, hsame⟩ := moved_connectors hclear hcurrent (hcreated.trans hended)
  refine ⟨s₁, _, _, hmoved, hours₁, .head .stop haway, hours₂, hplaces host "c1" hours₂,
    hdeleted _ _ host "c2" rfl rfl (by decide +kernel) hat₂, hcreated.trans hended, ?_⟩
  refine (hsame (some (host, "c1")) _ _ (fun v hv => ?_) rfl).2 rfl (by decide +kernel)
  rcases List.mem_cons.1 hv with rfl | hv
  · exact hat
  · obtain rfl := List.mem_singleton.1 hv
    exact hat

/-- A renamed record has left its first connector behind, which stays whatever
becomes of the record unless it is moved back. -/
theorem rename_leaves_connector :
    let host := "http://dbz:8083"
    let r (name : String) : Record :=
      ⟨{ Metadata.empty with finalizers := some [finalizer] },
        ⟨host, .ofList [("connector.class", "C"), ("name", name)]⟩, none⟩
    (r "c1").Admitted ∧ ∃ s o,
      Moment.Leads (.owned true) ⟨⟨some (r "c1"), [r "c1"], fun _ _ => none⟩, none⟩
        ⟨s, some (r "c2", .done (.ok o))⟩ ∧
      s.stored = some (r "c2") ∧ (r "c2").place ≠ some (host, "c1") ∧ s.Ours host "c1" ∧
      ∀ m, Moment.Leads (.away true host "c1") ⟨s, none⟩ m → m.scene.Ours host "c1" := by
  intro host r
  have hvalidated (name : String) (h : name = "c1" ∨ name = "c2") :
      (Admission.validated (r name)).MayEnd .allow := by
    rcases h with rfl | rfl <;>
      exact Record.mayEnd_validated_dbz rfl (by decide +kernel) (by decide +kernel)
  have hedit : (r "c1").OwnerAct (r "c2") :=
    .update (Record.updated_of_validated rfl (hvalidated "c2" (.inr rfl)))
  have hname₁ : (r "c1").connectorName = some "c1" := by decide +kernel
  have hname₂ : (r "c2").connectorName = some "c2" := by decide +kernel
  have helsewhere : (r "c2").place ≠ some (host, "c1") := by
    rw [Record.place_of_connectorName hname₂]
    exact fun h => absurd (Prod.mk.inj (Option.some.inj h)).2 (by decide)
  have hne : ((r "c2").spec.host, "c2") ≠ ((r "c1").spec.host, "c1") :=
    fun h => absurd (Prod.mk.inj h).2 (by decide)
  obtain ⟨s, hlead, hstored, -, hours, -⟩ := Moment.leads_moved true ⟨0, by decide⟩
    (s := ⟨some (r "c1"), [r "c1"], fun _ _ => none⟩) rfl rfl (by decide +kernel) hname₁ rfl
    hedit rfl (by decide +kernel) hname₂ rfl hne
  refine ⟨Record.admitted_of_validated rfl (hvalidated "c1" (.inl rfl)), s, _, hlead, hstored,
    helsewhere, hours, fun m hm => ?_⟩
  have hleft : Moment.Left host "c1" ⟨s, none⟩ :=
    ⟨⟨hours, fun r' hr' => by
      obtain rfl := Option.some.inj (hstored.symm.trans hr')
      exact helsewhere⟩, fun _ _ => nofun⟩
  exact (hleft.leads hm).scene.ours

end ConnectorKeeper
