import ConnectorKeeper.Proofs.PassQuestions
import ConnectorKeeper.Proofs.Surroundings

/-!
# Histories of a record

Passes over a record, what its owner does, and the removal of a record that is
to go, in any order.  A pass starts from the record as it is stored.  Its owner
may act between any two of its questions, and it may be cut off at any time.

`Moment.next_sound` is how something is shown of all histories: it has to be
kept by what happens beside passes, and every pass has to keep it whatever
happens beside.
-/

namespace ConnectorKeeper

open Relation (ReflTransGen)

/-- What holds for a history: whether reading can be trusted, and what the owner
does to the record.  The owner's acts may depend on the record that a pass in
flight has started from, and on the scene. -/
structure Rules where
  /-- Whether what is read of a cluster is so. -/
  truthful : Bool
  /-- The acts of the owner, from one version to the next. -/
  edits : Option Record → Scene → Record → Record → Prop

/-- What happens beside a pass in flight, if there is one. -/
inductive Scene.Beside (rules : Rules) (inFlight : Option Record) : Scene → Scene → Prop
  /-- The owner acts. -/
  | edit {s : Scene} {r r' : Record} (hstored : s.stored = some r)
      (h : rules.edits inFlight s r r') : Beside rules inFlight s (s.store r')
  /-- A record that is to go and that nothing holds is removed. -/
  | collect {s : Scene} {r : Record} (hstored : s.stored = some r)
      (hdeleting : r.deletionRequested = true) (hfree : r.finalizers = []) :
      Beside rules inFlight s { s with stored := none }

theorem Scene.ours_beside {rules : Rules} {inFlight : Option Record} {s s' : Scene}
    {host name : String} (h : s.Beside rules inFlight s') :
    s'.Ours host name ↔ s.Ours host name := by
  cases h <;> exact Iff.rfl

theorem Scene.Clear.beside {rules : Rules} {inFlight : Option Record} {s s' : Scene} (hs : s.Clear)
    (h : s.Beside rules inFlight s') : s'.Clear :=
  fun host name ho => hs host name ((Scene.ours_beside h).1 ho)

/-- One point of a history. -/
structure Moment where
  /-- The scene. -/
  scene : Scene
  /-- The pass in flight, as the record it started from and what is left of it. -/
  running : Option (Record × Step Outcome)

namespace Moment

/-- What can happen next. -/
inductive Next (rules : Rules) : Moment → Moment → Prop
  /-- Something happens beside the pass in flight. -/
  | beside {s s' : Scene} {running : Option (Record × Step Outcome)}
      (h : s.Beside rules (running.map (·.1)) s') : Next rules ⟨s, running⟩ ⟨s', running⟩
  /-- A pass starts. -/
  | start {s : Scene} {r : Record} (resync : Duration) (hstored : s.stored = some r) :
      Next rules ⟨s, none⟩ ⟨s, some (r, pass resync r)⟩
  /-- A question of the pass is answered. -/
  | answer {s s' : Scene} {r : Record} {n : Neighbour} {next : n.Reply → Step Outcome}
      {reply : n.Reply} (h : s.answers rules.truthful n reply s') :
      Next rules ⟨s, some (r, .ask n next)⟩ ⟨s', some (r, next reply)⟩
  /-- The pass is over, or it is cut off. -/
  | stop {s : Scene} {running : Record × Step Outcome} :
      Next rules ⟨s, some running⟩ ⟨s, none⟩

/-- A history from one moment to another. -/
abbrev Leads (rules : Rules) : Moment → Moment → Prop := ReflTransGen (Next rules)

end Moment

/-! ## What an answer changes -/

/-- A pass over a live record puts a connector where the record says, or at most has
the record stored anew, with its finalizer if it had it. -/
theorem Scene.cases_of_live_answer {truthful : Bool} {s s' : Scene} {r : Record} {n : Neighbour}
    {reply : n.Reply} (hn : n.Concerns r) (hlive : r.deletionRequested = false)
    (h : s.answers truthful n reply s') :
    (∃ host name c, r.place = some (host, name) ∧ s' = s.put host name (some c)) ∨
      s.Revises s' fun stored changed =>
        stored.finalizerPresent = true → changed.finalizerPresent = true := by
  have hdeleting : r.deletionRequested ≠ true := by simp [hlive]
  cases n with
  | lookup | readConfig => exact .inr (.inl h.1)
  | readStatus | clock => exact .inr (.inl h)
  | create host config =>
    obtain ⟨rfl, rfl, hname, -⟩ := hn
    obtain ⟨name, hname⟩ := Option.isSome_iff_exists.1 hname
    rcases h with h | ⟨h, -⟩
    · refine .inl ⟨_, name, ⟨r.spec.config, true⟩, r.place_of_connectorName hname, ?_⟩
      rw [h, ← Record.connectorName, hname]
      rfl
    · exact .inr (.inl h)
  | update host name config =>
    obtain ⟨rfl, hname, -⟩ := hn
    rcases h with h | ⟨h, -⟩
    · exact .inl ⟨_, name, _, r.place_of_connectorName hname, h⟩
    · exact .inr (.inl h)
  | addFinalizer r' =>
    rcases exec_addFinalizer h with ⟨rfl, -⟩ | ⟨stored, changed, hstored, rfl, hspec, hdel, hfin⟩
    · exact .inr (.inl rfl)
    · exact .inr (.inr ⟨stored, changed, hstored, rfl, hspec, hdel, fun _ => hfin⟩)
  | patchStatus r' status =>
    rcases exec_patchStatus h with rfl | ⟨stored, changed, hstored, rfl, hspec, hdel, hfin⟩
    · exact .inr (.inl rfl)
    · refine .inr (.inr ⟨stored, changed, hstored, rfl, hspec, hdel, fun hpresent => ?_⟩)
      rw [Record.finalizerPresent, hfin]
      exact hpresent
  | delete host name => exact absurd hn.2.2 hdeleting
  | removeFinalizer r' => exact absurd hn.2 hdeleting

/-- A pass over a record that is being deleted takes away the connector that the
record names, or at most has the record stored anew. -/
theorem Scene.cases_of_deleting_answer {truthful : Bool} {s s' : Scene} {r : Record}
    {n : Neighbour} {reply : n.Reply} (hn : n.Concerns r) (hdeleting : r.deletionRequested = true)
    (h : s.answers truthful n reply s') :
    (∃ host name, r.place = some (host, name) ∧ s' = s.put host name none) ∨
      s.Revises s' fun _ _ => True := by
  have hlive : r.deletionRequested ≠ false := by simp [hdeleting]
  cases n with
  | lookup | readConfig => exact .inr (.inl h.1)
  | readStatus | clock => exact .inr (.inl h)
  | delete host name =>
    obtain ⟨rfl, hname, -⟩ := hn
    rcases h.1 with h | ⟨h, -⟩
    · exact .inl ⟨_, name, r.place_of_connectorName hname, h⟩
    · exact .inr (.inl h)
  | removeFinalizer r' => exact .inr (exec_removeFinalizer h)
  | create host config => exact absurd hn.2.2.2 hlive
  | update host name config => exact absurd hn.2.2 hlive
  | addFinalizer r' => exact absurd hn.2.2 hlive
  | patchStatus r' status => exact absurd hn.2 hlive

theorem Scene.ours_of_deleting_answer {truthful : Bool} {s s' : Scene} {r : Record} {n : Neighbour}
    {reply : n.Reply} {host name : String} (hn : n.Concerns r)
    (hdeleting : r.deletionRequested = true) (h : s.answers truthful n reply s')
    (hours : s'.Ours host name) : s.Ours host name := by
  rcases cases_of_deleting_answer hn hdeleting h with ⟨_, _, _, rfl⟩ | hrev
  · exact ours_of_put_none hours
  · exact (ours_revises hrev).1 hours

/-! ## What holds in all histories -/

/-- What is demanded of passes: what they keep, where they may ask, and what their
results mean.  The last two may depend on the record that a pass started from. -/
structure Demands where
  /-- What holds at all times. -/
  keeps : Scene → Prop
  /-- What holds where a question is asked. -/
  duty : Record → Scene → Neighbour → Prop
  /-- What holds where a pass has ended. -/
  post : Record → Scene → Except PassError Outcome → Prop

/-- The terms under which a pass over a record runs. -/
def Demands.terms (demands : Demands) (rules : Rules) (r : Record) :
    Program.Terms Neighbour Neighbour.Reply Scene where
  answer := Scene.answers rules.truthful
  beside := Scene.Beside rules (some r)
  keeps := demands.keeps
  duty := demands.duty r

/-- A pass in flight, or what is left of it, meets the demands. -/
def Demands.Met (demands : Demands) (rules : Rules) (m : Moment) : Prop :=
  demands.keeps m.scene ∧ ∀ r p, m.running = some (r, p) →
    p.Throughout (demands.terms rules r) (demands.post r) m.scene

namespace Moment

variable {rules : Rules} {demands : Demands}

/-- The demands are met at all moments if nothing beside passes breaks them and
every pass meets them from its start on. -/
theorem next_sound
    (hbeside : ∀ inFlight s s', demands.keeps s → Scene.Beside rules inFlight s s' →
      demands.keeps s')
    (hpass : ∀ resync s r, demands.keeps s → s.stored = some r →
      (pass resync r).Throughout (demands.terms rules r) (demands.post r) s)
    {m m' : Moment} (h : demands.Met rules m) (hnext : Next rules m m') :
    demands.Met rules m' := by
  obtain ⟨hkeeps, hrunning⟩ := h
  cases hnext with
  | @beside s s' running hstep =>
    refine ⟨hbeside _ s s' hkeeps hstep, fun r p hp => ?_⟩
    have hflight : running = some (r, p) := hp
    subst hflight
    exact (hrunning r p rfl).beside hstep
  | @start s r resync hstored =>
    refine ⟨hkeeps, fun r' p hp => ?_⟩
    obtain ⟨rfl, rfl⟩ := Prod.mk.inj (Option.some.inj hp)
    exact hpass resync s r hkeeps hstored
  | @answer s s' r n next reply hanswer =>
    obtain ⟨hkeeps', hrest⟩ := (hrunning r _ rfl).of_answer hanswer
    refine ⟨hkeeps', fun r' p hp => ?_⟩
    obtain ⟨rfl, rfl⟩ := Prod.mk.inj (Option.some.inj hp)
    exact hrest
  | stop => exact ⟨hkeeps, fun _ _ => nofun⟩

theorem leads_sound
    (hbeside : ∀ inFlight s s', demands.keeps s → Scene.Beside rules inFlight s s' →
      demands.keeps s')
    (hpass : ∀ resync s r, demands.keeps s → s.stored = some r →
      (pass resync r).Throughout (demands.terms rules r) (demands.post r) s)
    {s : Scene} {m : Moment} (hkeeps : demands.keeps s) (h : Leads rules ⟨s, none⟩ m) :
    demands.Met rules m := by
  induction h with
  | refl => exact ⟨hkeeps, fun _ _ => nofun⟩
  | tail _ hnext ih => exact next_sound hbeside hpass ih hnext

/-! ## What can happen -/

variable {s : Scene} {r : Record}

/-- A pass that has only to report can end, with the report refused. -/
theorem leads_finish (rules : Rules) (s : Scene) (r : Record) (resync : Duration) (action : Action)
    (phase : Phase) (reason message : String) :
    Leads rules ⟨s, some (r, finish resync r action phase reason message)⟩
      ⟨s, some (r, .done (.ok ⟨action, some resync⟩))⟩ := by
  have hclock : s.answers rules.truthful .clock (⟨0, 0⟩ : Timestamp) s := rfl
  refine .head (.answer hclock) ?_
  dsimp only
  split
  · exact .refl
  · obtain ⟨e, hexec⟩ := s.exists_exec_patch_error r "/status" (Store.statusPatch
      (r.currentStatus.next phase (.synced reason message (⟨0, 0⟩ : Timestamp).textFull)))
    have hrefused : s.answers rules.truthful (.patchStatus r _) (.error e) s := hexec
    exact .single (.answer hrefused)

/-- A pass over a record that is held can create its connector, where there is none. -/
theorem leads_create (rules : Rules) (resync : Duration) {name : String}
    (hstored : s.stored = some r) (hlive : r.deletionRequested = false)
    (hpresent : r.finalizerPresent = true) (hname : r.connectorName = some name)
    (habsent : s.clusters r.spec.host name = none) :
    Leads rules ⟨s, none⟩ ⟨s.put r.spec.host name (some ⟨r.spec.config, true⟩),
      some (r, .done (.ok ⟨.create, some resync⟩))⟩ := by
  have hpass : pass resync r = (observe r.spec.host name).andThen (converge resync r name) := by
    simp only [pass, Record.lifecycle, hlive, hpresent, sync, hname, if_true, if_false,
      Bool.false_eq_true]
  have hlookup : s.answers rules.truthful (.lookup r.spec.host name) (.ok .absent) s := by
    refine ⟨rfl, fun _ p hp => ?_⟩
    obtain rfl := Except.ok.inj hp
    simp [habsent]
  have hcreate : s.answers rules.truthful (.create r.spec.host r.spec.config) (.ok ())
      (s.put r.spec.host name (some ⟨r.spec.config, true⟩)) := by
    left
    rw [← Record.connectorName, hname]
    rfl
  refine .head (.start resync hstored) ?_
  rw [hpass]
  refine .head (.answer hlookup) (.head (.answer hcreate) ?_)
  exact leads_finish ..

/-- A pass over a record that is being deleted can delete its connector, and end with
the record said to be gone. -/
theorem leads_cleanup (rules : Rules) (resync : Duration) {name : String}
    (hstored : s.stored = some r) (hdeleting : r.deletionRequested = true)
    (hpresent : r.finalizerPresent = true) (hname : r.connectorName = some name)
    (hgone : ∀ s : Scene, Program.Exec Scene.wire (Store.removeFinalizer r) s (.ok ()) s) :
    Leads rules ⟨s, none⟩
      ⟨s.put r.spec.host name none, some (r, .done (.ok ⟨.delete, none⟩))⟩ := by
  have hdelete : s.answers rules.truthful (.delete r.spec.host name) (.ok ())
      (s.put r.spec.host name none) := ⟨.inl rfl, fun _ => nofun⟩
  have hrelease : (s.put r.spec.host name none).answers rules.truthful (.removeFinalizer r)
      (.ok ()) (s.put r.spec.host name none) := hgone _
  refine .head (.start resync hstored) ?_
  simp only [pass, Record.lifecycle, hdeleting, cleanup, hpresent, hname, if_true]
  refine .head (.answer hdelete) ?_
  simp only [letGo, Finalizer.release, hdeleting, hpresent, Bool.not_true, Bool.false_eq_true,
    if_false]
  exact .single (.answer hrelease)

end Moment

end ConnectorKeeper
