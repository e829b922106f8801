import ConnectorKeeper.Proofs.Admitted

/-!
# Records that lose their name

A pass over a record that is being deleted and names no connector takes our
finalizer off and asks no cluster anything.  A record that was let through names
its connector while it is live, so such a record has lost its name after its
removal was asked for.

`nameless_release` says when this leaves no connector behind: if the name is
taken away only when no connector of ours is there, and no pass is in flight
that may still create one.  And it says that any connector of ours at a record
that is being deleted can be left behind in this way, as the webhook lets the
name be taken away.  `release_leaves_connector` is such a history.
-/

namespace ConnectorKeeper

/-- The record without the name of its connector. -/
def Record.unnamed (r : Record) : Record :=
  { r with spec := { r.spec with config := r.spec.config.erase nameKey } }

theorem Record.connectorName_unnamed (r : Record) : r.unnamed.connectorName = none :=
  StringMap.get?_erase_self ..

/-- The webhook lets the name of a record that is being deleted be taken away. -/
theorem Record.ownerAct_unnamed {r : Record} (hdeleting : r.deletionRequested = true) :
    r.OwnerAct r.unnamed :=
  .update (updated_of_deleting rfl hdeleting)

namespace Scene

/-- Taking the name away leaves no connector behind, and no pass in flight that may
create one. -/
def MayUnname (inFlight : Option Record) (s : Scene) : Prop :=
  s.Clear ∧ ∀ r, inFlight = some r → r.deletionRequested = true

/-- A record without a name is being deleted, and no connector is ours. -/
def NamedOrClear (s : Scene) : Prop :=
  ∀ r, s.stored = some r → r.connectorName = none → r.deletionRequested = true ∧ s.Clear

/-- What a pass over a record relies on: a live one has a name and keeps it, one
without a name has no connector of ours. -/
structure Relied (r : Record) (s : Scene) : Prop where
  stored : s.NamedOrClear
  live : r.deletionRequested = false → r.connectorName ≠ none ∧
    ∀ r', s.stored = some r' → r'.connectorName ≠ none
  clear : r.connectorName = none → s.Clear

end Scene

/-- Owners who do what the webhook lets through, and take away the name of a record
that is being deleted only when this leaves nothing behind. -/
def Rules.careful (truthful : Bool) : Rules :=
  ⟨truthful, fun inFlight s r r' => r.OwnerAct r' ∧
    (r.deletionRequested = true → r.connectorName ≠ none → r'.connectorName = none →
      s.MayUnname inFlight)⟩

/-- An owner's act takes the name away only from a record that is being deleted. -/
theorem Record.OwnerAct.deleting_of_unnamed {r r' : Record} (h : r.OwnerAct r')
    (hname : r.connectorName ≠ none) (hname' : r'.connectorName = none) :
    r.deletionRequested = true := by
  cases h with
  | mark t => exact absurd hname' hname
  | update h =>
    cases hdeleting : r.deletionRequested with
    | true => rfl
    | false =>
      have hnamed := h.named hdeleting (Option.isSome_iff_ne_none.2 hname)
      rw [hname'] at hnamed
      cases hnamed

/-- A deletion that was asked for stays so. -/
theorem Record.OwnerAct.deletionRequested {r r' : Record} (h : r.OwnerAct r')
    (hdeleting : r.deletionRequested = true) : r'.deletionRequested = true := by
  cases h with
  | mark t => rfl
  | update h =>
    rw [Record.deletionRequested, h.mark]
    exact hdeleting

namespace Scene

variable {truthful : Bool} {inFlight : Option Record} {s s' : Scene} {r : Record} {n : Neighbour}
  {reply : n.Reply}

/-! ## Beside a pass -/

theorem NamedOrClear.beside (h : s.NamedOrClear)
    (hstep : s.Beside (.careful truthful) inFlight s') : s'.NamedOrClear := by
  intro r' hr' hname'
  have hclear : s.Clear → s'.Clear := fun hs => hs.beside hstep
  cases hstep with
  | collect => cases hr'
  | @edit r r' hstored hedit =>
    obtain rfl := Option.some.inj hr'
    obtain ⟨hact, hunnamed⟩ := hedit
    cases hname : r.connectorName with
    | none =>
      obtain ⟨hdeleting, hs⟩ := h r hstored hname
      exact ⟨hact.deletionRequested hdeleting, hclear hs⟩
    | some name =>
      have hnamed : r.connectorName ≠ none := by simp [hname]
      have hdeleting := hact.deleting_of_unnamed hnamed hname'
      exact ⟨hact.deletionRequested hdeleting,
        hclear (hunnamed hdeleting hnamed hname').1⟩

theorem Relied.beside (h : s.Relied r) (hstep : s.Beside (.careful truthful) (some r) s') :
    s'.Relied r := by
  refine ⟨h.stored.beside hstep, fun hlive => ⟨(h.live hlive).1, fun r' hr' hname' => ?_⟩,
    fun hname => (h.clear hname).beside hstep⟩
  cases hstep with
  | collect => cases hr'
  | edit hstored hedit =>
    obtain rfl := Option.some.inj hr'
    have hnamed := (h.live hlive).2 _ hstored
    have hdeleting := hedit.1.deleting_of_unnamed hnamed hname'
    -- the pass in flight is over a live record
    have hflight := (hedit.2 hdeleting hnamed hname').2 r rfl
    rw [hlive] at hflight
    cases hflight

/-! ## Within a pass -/

theorem Relied.revises {change : Record → Record → Prop} (h : s.Relied r)
    (hrev : s.Revises s' change) : s'.Relied r := by
  have hname (v' : Record) (hv' : s'.stored = some v') : ∃ v, s.stored = some v ∧
      v'.connectorName = v.connectorName ∧ v'.deletionRequested = v.deletionRequested := by
    rcases hrev with rfl | ⟨v, w, hv, rfl, hspec, hdeletion, -⟩
    · exact ⟨v', hv', rfl, rfl⟩
    · obtain rfl := Option.some.inj hv'
      exact ⟨v, hv, by rw [Record.connectorName, hspec, Record.connectorName], hdeletion⟩
  refine ⟨fun v' hv' hname' => ?_, fun hlive => ⟨(h.live hlive).1, fun v' hv' => ?_⟩,
    fun hnone => (h.clear hnone).revises hrev⟩
  · obtain ⟨v, hv, heq, hdeletion⟩ := hname v' hv'
    obtain ⟨hdeleting, hclear⟩ := h.stored v hv (heq ▸ hname')
    exact ⟨hdeletion.trans hdeleting, hclear.revises hrev⟩
  · obtain ⟨v, hv, heq, -⟩ := hname v' hv'
    rw [heq]
    exact (h.live hlive).2 v hv

/-- Whatever is answered to a pass, it leaves no connector where it relies on none. -/
theorem Relied.answer (h : s.Relied r) (hn : n.Concerns r)
    (hanswer : s.answers truthful n reply s') : s'.Relied r := by
  cases hdeleting : r.deletionRequested with
  | false =>
    obtain ⟨hnamed, hstored⟩ := h.live hdeleting
    rcases cases_of_live_answer hn hdeleting hanswer with ⟨_, _, _, _, rfl⟩ | hrev
    · exact ⟨fun v hv hname => absurd hname (hstored v hv), fun _ => ⟨hnamed, hstored⟩,
        fun hname => absurd hname hnamed⟩
    · exact h.revises hrev
  | true =>
    have hlive : r.deletionRequested ≠ false := by simp [hdeleting]
    rcases cases_of_deleting_answer hn hdeleting hanswer with ⟨host, name, _, rfl⟩ | hrev
    · refine ⟨fun v hv hname => ?_, fun h => absurd h hlive,
        fun hname => (h.clear hname).put_none host name⟩
      obtain ⟨hv', hclear⟩ := h.stored v hv hname
      exact ⟨hv', hclear.put_none host name⟩
    · exact h.revises hrev

end Scene

/-! ## Passes -/

open Scene

/-- A pass over a record without a name finds and leaves no connector of ours. -/
def Demands.clear : Demands where
  keeps := NamedOrClear
  duty r s _ := r.connectorName = none → s.Clear
  post r s _ := r.connectorName = none → s.Clear

theorem pass_clear {truthful : Bool} {s : Scene} {r : Record} (resync : Duration)
    (h : s.NamedOrClear) (hstored : s.stored = some r) :
    (pass resync r).Throughout (Demands.clear.terms (.careful truthful) r)
      (Demands.clear.post r) s := by
  have hnamed (hlive : r.deletionRequested = false) : r.connectorName ≠ none := fun hname => by
    have hdeleting := (h r hstored hname).1
    rw [hlive] at hdeleting
    cases hdeleting
  have hrelied : s.Relied r := by
    refine ⟨h, fun hlive => ⟨hnamed hlive, fun r' hr' => ?_⟩, fun hname => (h r hstored hname).2⟩
    obtain rfl := Option.some.inj (hstored.symm.trans hr')
    exact hnamed hlive
  refine .of_onlyAsks (A := Relied r) (pass_concerns resync r)
    (fun _ _ hs hstep => hs.beside hstep) hrelied (fun _ _ hs _ => hs.clear) ?_
    (fun _ _ hs => hs.clear)
  intro s n reply s' hs hn hanswer
  have hs' := hs.answer hn hanswer
  exact ⟨hs'.stored, hs'⟩

/-! ## Histories -/

namespace Moment

variable {truthful : Bool} {s : Scene} {r : Record} {m : Moment} {host name : String}

theorem met_clear (h₀ : s.NamedOrClear) (h : Leads (.careful truthful) ⟨s, none⟩ m) :
    Demands.clear.Met (.careful truthful) m :=
  leads_sound (fun _ _ _ (hs : NamedOrClear _) hstep => hs.beside hstep)
    (fun resync _ _ hs hstored => pass_clear resync hs hstored) h₀ h

/-- A pass over a record that has lost its name takes the finalizer off at once. -/
theorem leads_release (rules : Rules) (hstored : s.stored = some r)
    (hdeleting : r.deletionRequested = true) (hpresent : r.finalizerPresent = true)
    (hname : r.connectorName = none) :
    ∃ next, Leads rules ⟨s, none⟩ ⟨s, some (r, .ask (.removeFinalizer r) next)⟩ := by
  have hstart : Next rules ⟨s, none⟩ ⟨s, some (r, pass ⟨0, by decide⟩ r)⟩ := .start _ hstored
  simp only [pass, Record.lifecycle, hdeleting, cleanup, hpresent, hname, letGo, Finalizer.release,
    Bool.not_true, Bool.false_eq_true, if_true, if_false] at hstart
  exact ⟨_, .single hstart⟩

/-- A connector of ours is there, or a pass in flight is about to create it. -/
def Exposes (host name : String) (m : Moment) : Prop :=
  m.scene.Ours host name ∨ ∃ r config next, m.running = some (r, .ask (.create host config) next) ∧
    config.get? nameKey = some name

/-- The pass in flight may end with the connector there. -/
theorem Exposes.leads_idle (rules : Rules) (h : m.Exposes host name) :
    ∃ s, Leads rules m ⟨s, none⟩ ∧ s.stored = m.scene.stored ∧ s.Ours host name := by
  obtain ⟨s, running⟩ := m
  rcases h with hours | ⟨r, config, next, hrunning, hname⟩
  · refine ⟨s, ?_, rfl, hours⟩
    cases running with
    | none => exact .refl
    | some running => exact .single .stop
  · obtain rfl : running = some (r, .ask (.create host config) next) := hrunning
    have hcreate : s.answers rules.truthful (.create host config) (.ok ())
        (s.put host name (some ⟨config, true⟩)) := by
      left
      rw [hname]
      rfl
    exact ⟨s.put host name (some ⟨config, true⟩), .head (.answer hcreate) (.single .stop), rfl,
      ours_put_self rfl⟩

/-- Where a connector of ours is at a record that is being deleted, its owner can have
it left behind. -/
theorem leads_behind (hstored : m.scene.stored = some r) (hdeleting : r.deletionRequested = true)
    (hpresent : r.finalizerPresent = true) (h : m.Exposes host name) :
    ∃ s next, Leads (.owned truthful) m
        ⟨s, some (r.unnamed, .ask (.removeFinalizer r.unnamed) next)⟩ ∧ s.Ours host name := by
  obtain ⟨s, running⟩ := m
  have hedit : Next (.owned truthful) ⟨s, running⟩ ⟨s.store r.unnamed, running⟩ :=
    .beside (.edit hstored (Record.ownerAct_unnamed hdeleting))
  have hexposes : Exposes host name ⟨s.store r.unnamed, running⟩ := h
  obtain ⟨s', hidle, hstored', hours⟩ := hexposes.leads_idle (.owned truthful)
  obtain ⟨next, hrelease⟩ := leads_release (.owned truthful) hstored' hdeleting hpresent
    r.connectorName_unnamed
  exact ⟨s', next, (hidle.head hedit).trans hrelease, hours⟩

/-- The removal of a record can be asked for while its connector is there. -/
theorem leads_marked (truthful : Bool) (t : Timestamp) (hstored : s.stored = some r)
    (hlive : r.deletionRequested = false) (hpresent : r.finalizerPresent = true)
    (hname : r.connectorName = some name) (habsent : s.clusters r.spec.host name = none) :
    ∃ s', Leads (.owned truthful) ⟨s, none⟩ ⟨s', none⟩ ∧ s'.stored = some (r.marked t) ∧
      s'.Ours r.spec.host name := by
  have hcreate := leads_create (.owned truthful) ⟨0, by decide⟩ hstored hlive hpresent hname habsent
  let s₁ := s.put r.spec.host name (some ⟨r.spec.config, true⟩)
  have hmark : Next (.owned truthful) ⟨s₁, none⟩ ⟨s₁.store (r.marked t), none⟩ :=
    .beside (.edit hstored (.mark t))
  exact ⟨s₁.store (r.marked t), (hcreate.tail .stop).tail hmark, rfl, ours_put_self rfl⟩

end Moment

/-- A pass over a record without a name has no connector to delete, if its owner was
careful.  Otherwise a connector that is there or about to be can be left behind. -/
theorem nameless_release {truthful : Bool} {s : Scene} {r : Record} (hstored : s.stored = some r)
    (hadmitted : r.Admitted) :
    (∀ m r' p, Moment.Leads (.careful truthful) ⟨s, none⟩ m → m.running = some (r', p) →
      r'.connectorName = none → m.scene.Clear) ∧
    ∀ m r' host name, Moment.Leads (.owned truthful) ⟨s, none⟩ m → m.scene.stored = some r' →
      r'.deletionRequested = true → r'.finalizerPresent = true → m.Exposes host name →
      r'.OwnerAct r'.unnamed ∧ ∃ s' next, Moment.Leads (.owned truthful) m
        ⟨s', some (r'.unnamed, .ask (.removeFinalizer r'.unnamed) next)⟩ ∧
        r'.unnamed.connectorName = none ∧ s'.Ours host name := by
  refine ⟨fun m r' p hlead hrunning hname => ?_,
    fun m r' host name _ hr' hdeleting hpresent h => ?_⟩
  · have h₀ : s.NamedOrClear := fun v hv hnone => by
      obtain rfl := Option.some.inj (hstored.symm.trans hv)
      have hnamed := hadmitted.named
      rw [hnone] at hnamed
      cases hnamed
    have hpass := (Moment.met_clear h₀ hlead).2 r' p hrunning
    cases p with
    | done result => exact hpass.post_of_done hname
    | ask n next => exact hpass.duty_of_ask hname
  · obtain ⟨s', next, hlead, hours⟩ := Moment.leads_behind hr' hdeleting hpresent h
    exact ⟨Record.ownerAct_unnamed hdeleting, s', next, hlead, r'.connectorName_unnamed, hours⟩

/-- A record that loses its name before it has a connector, and one that could lose it
with its connector there. -/
theorem nameless_release_orders :
    let host := "http://dbz:8083"
    let r : Record := ⟨{ Metadata.empty with finalizers := some [finalizer] },
      ⟨host, .ofList [("connector.class", "C"), ("name", "orders")]⟩, none⟩
    let v := r.marked ⟨0, 0⟩
    let s : Scene := ⟨some r, [r], fun _ _ => none⟩
    r.Admitted ∧
      (∃ s₁ p, Moment.Leads (.careful true) ⟨s, none⟩ ⟨s₁, some (v.unnamed, p)⟩ ∧ s₁.Clear) ∧
      ∃ s₂ s₃ next, Moment.Leads (.owned true) ⟨s, none⟩ ⟨s₂, none⟩ ∧ s₂.Ours host "orders" ∧
        v.OwnerAct v.unnamed ∧ Moment.Leads (.owned true) ⟨s₂, none⟩
          ⟨s₃, some (v.unnamed, .ask (.removeFinalizer v.unnamed) next)⟩ ∧
        s₃.Ours host "orders" := by
  intro host r v s
  have hadmitted : r.Admitted := Record.admitted_of_validated rfl <|
    Record.mayEnd_validated_dbz rfl (by decide +kernel) (by decide +kernel)
  have hpresent : r.finalizerPresent = true := by decide +kernel
  have hname : r.connectorName = some "orders" := by decide +kernel
  have hclear : s.Clear := Scene.clear_of_none fun _ _ => rfl
  -- the name is taken away at once
  have hmark : Moment.Next (.careful true) ⟨s, none⟩ ⟨s.store v, none⟩ :=
    .beside (.edit rfl ⟨.mark _, fun h => nomatch h⟩)
  have hunname : Moment.Next (.careful true) ⟨s.store v, none⟩
      ⟨(s.store v).store v.unnamed, none⟩ :=
    .beside (.edit rfl ⟨Record.ownerAct_unnamed rfl, fun _ _ _ => ⟨hclear, fun _ => nofun⟩⟩)
  obtain ⟨next, hstart⟩ := Moment.leads_release (.careful true)
    (s := (s.store v).store v.unnamed) rfl rfl hpresent v.connectorName_unnamed
  have hreleased := (hstart.head hunname).head hmark
  -- the name can be taken away after the connector was created
  obtain ⟨s₂, hcreated, hstored, hours₂⟩ := Moment.leads_marked true ⟨0, 0⟩ (s := s) rfl rfl
    hpresent hname rfl
  obtain ⟨hsafe, hbehind⟩ := @nameless_release true s r rfl hadmitted
  obtain ⟨hact, s₃, next, hlead, -, hours₃⟩ := hbehind ⟨s₂, none⟩ v host "orders" hcreated hstored
    rfl hpresent (.inl hours₂)
  exact ⟨hadmitted, ⟨_, _, hreleased, hsafe _ _ _ hreleased rfl v.connectorName_unnamed⟩, s₂, s₃,
    next, hcreated, hours₂, hact, hlead, hours₃⟩

/-- A connector was created, and the finalizer comes off a record that no longer names
it. -/
theorem release_leaves_connector :
    let host := "http://dbz:8083"
    let r : Record := ⟨{ Metadata.empty with finalizers := some [finalizer] },
      ⟨host, .ofList [("connector.class", "C"), ("name", "orders")]⟩, none⟩
    let v := (r.marked ⟨0, 0⟩).unnamed
    r.Admitted ∧ (r.marked ⟨0, 0⟩).Updated v ∧ v.connectorName = none ∧ ∃ s next,
      Moment.Leads (.owned true) ⟨⟨some r, [r], fun _ _ => none⟩, none⟩
        ⟨s, some (v, .ask (.removeFinalizer v) next)⟩ ∧ s.Ours host "orders" := by
  intro host r v
  have hpresent : r.finalizerPresent = true := by decide +kernel
  have hname : r.connectorName = some "orders" := by decide +kernel
  obtain ⟨s₁, hcreated, hstored, hours₁⟩ := Moment.leads_marked true ⟨0, 0⟩
    (s := ⟨some r, [r], fun _ _ => none⟩) rfl rfl hpresent hname rfl
  obtain ⟨s, next, hlead, hours⟩ := @Moment.leads_behind true (r.marked ⟨0, 0⟩) ⟨s₁, none⟩ _ _
    hstored rfl hpresent (.inl hours₁)
  refine ⟨?_, Record.updated_of_deleting rfl rfl, Record.connectorName_unnamed _, s, next,
    hcreated.trans hlead, hours⟩
  exact Record.admitted_of_validated rfl <|
    Record.mayEnd_validated_dbz rfl (by decide +kernel) (by decide +kernel)

end ConnectorKeeper
