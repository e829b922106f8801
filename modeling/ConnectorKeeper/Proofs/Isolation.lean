import ConnectorKeeper.Proofs.Configurations
import ConnectorKeeper.Proofs.Routing
import ConnectorKeeper.Proofs.Schedules
import ConnectorKeeper.Reconcile.Controller

/-!
# Passes over different records

A controller works on several records at once.  A pass is run request by request, then
its result is counted, and an error heeded (`supervised`).  Two of these share the
connectors, the records and what the controller keeps (`Commons`).  Whose state a request
is answered from, and changes, is told by the request alone: by its URL, the name in its
body or its path (`Systems.act`).

What a pass sends is about the connector that its record names, or the record
(`pass_requests`).  Where these are others for another record, neither pass notices the
other: in every interleaving each sends the same requests, ends alike and leaves the same
behind as if the two had run one after the other, in whatever order
(`Systems.alike_of_interleaved`).  The counters of all passes are then the same too.
-/

namespace ConnectorKeeper

open Program (Exchange Interleaved Acts Own Adds Both Ran inTurn)

/-! ## A pass, piece by piece -/

/-- One thing that the controller does for a pass. -/
inductive Errand where
  /-- It makes a request, for a question of the pass. -/
  | request (n : Neighbour) (q : Wire)
  /-- It records the result. -/
  | conclude (r : Record) (result : Except PassError Outcome)
  /-- It heeds an error. -/
  | heed (r : Record) (e : PassError)

namespace Errand

/-- What comes of it. -/
def Reply : Errand → Type
  | .request _ q => q.Reply
  | .conclude .. => Unit
  | .heed .. => Requeue

/-- The exchange on the wire, if it is one. -/
def sent? : Exchange Reply → Option (Exchange Wire.Reply)
  | ⟨.request _ q, reply⟩ => some ⟨q, reply⟩
  | _ => none

end Errand

/-- A question of a pass, as the requests that it takes. -/
def Neighbour.errand (n : Neighbour) : Program Errand Errand.Reply n.Reply :=
  n.overWire.run fun q => Program.question (Errand.request n q)

/-- What the controller does after a pass over a record: its result, and when the next
one is due. -/
def settle (r : Record) (result : Except PassError Outcome) :
    Program Errand Errand.Reply (Except PassError Outcome × Requeue) :=
  .ask (.conclude r result) fun _ =>
    match result with
    | .ok outcome => .done (result, outcome.requeue)
    | .error e => .ask (.heed r e) fun requeue => .done (result, requeue)

/-- A pass over a record, with what the controller does after it. -/
def supervised (settings : ControllerSettings) (r : Record) :
    Program Errand Errand.Reply (Except PassError Outcome × Requeue) :=
  Program.bind ((pass settings.resync r).run Neighbour.errand) (settle r)

section Sent

open Program (trace_done_iff trace_ask_iff trace_bind_iff)

theorem trace_of_request {n : Neighbour} {α : Type} {t : Talk α}
    {v : List (Exchange Errand.Reply)} {a : α}
    (h : (t.run fun q => Program.question (Errand.request n q)).Trace v a) :
    t.Trace (v.filterMap Errand.sent?) a := by
  induction t generalizing v with
  | done b =>
    obtain ⟨rfl, rfl⟩ := trace_done_iff.1 h
    exact .done _
  | ask q next ih =>
    obtain ⟨reply, v', rfl, hrest⟩ := trace_ask_iff.1 h
    exact trace_ask_iff.2 ⟨reply, _, rfl, ih reply hrest⟩

theorem Work.trace_of_errands {α : Type} {w : Work α} {v : List (Exchange Errand.Reply)} {a : α}
    (h : (w.run Neighbour.errand).Trace v a) :
    w.overWire.Trace (v.filterMap Errand.sent?) a := by
  induction w generalizing v with
  | done b =>
    obtain ⟨rfl, rfl⟩ := trace_done_iff.1 h
    exact .done _
  | ask n next ih =>
    obtain ⟨reply, v₁, v₂, hreply, hrest, rfl⟩ := trace_bind_iff.1 h
    rw [List.filterMap_append]
    exact trace_bind_iff.2 ⟨reply, _, _, trace_of_request hreply, ih reply hrest, rfl⟩

/-- What is sent on the wire is what the pass sends. -/
theorem pass_of_supervised {settings : ControllerSettings} {r : Record}
    {v : List (Exchange Errand.Reply)} {result : Except PassError Outcome} {requeue : Requeue}
    (h : (supervised settings r).Trace v (result, requeue)) :
    (pass settings.resync r).overWire.Trace (v.filterMap Errand.sent?) result := by
  obtain ⟨result', v₁, v₂, hpass, hend, rfl⟩ := trace_bind_iff.1 h
  have hlast : result = result' ∧ v₂.filterMap Errand.sent? = [] := by
    obtain ⟨_, v₃, rfl, hconcluded⟩ := trace_ask_iff.1 hend
    cases result' with
    | ok outcome =>
      obtain ⟨rfl, hresult⟩ := trace_done_iff.1 hconcluded
      exact ⟨congrArg Prod.fst hresult, rfl⟩
    | error e =>
      obtain ⟨_, v₄, rfl, hheeded⟩ := trace_ask_iff.1 hconcluded
      obtain ⟨rfl, hresult⟩ := trace_done_iff.1 hheeded
      exact ⟨congrArg Prod.fst hresult, rfl⟩
  obtain ⟨rfl, hnone⟩ := hlast
  rw [List.filterMap_append, hnone, List.append_nil]
  exact Work.trace_of_errands hpass

end Sent

/-! ## What an errand is about -/

/-- What is done for a pass over a record.  A request is told by itself, not by the
question that it is made for. -/
def Errand.Concerns (r : Record) : Errand → Prop
  | .request _ q => q.Concerns r
  | .conclude r' _ | .heed r' _ => r' = r

theorem Neighbour.errand_request (n : Neighbour) :
    n.errand.OnlyAsks fun e => ∃ q, e = .request n q ∧ n.overWire.MayAsk q := by
  intro e he
  obtain ⟨q, hq, he⟩ := Program.exists_mayAsk_of_run he
  obtain rfl | ⟨_, he⟩ := (Program.mayAsk_ask ..).1 he
  · exact ⟨q, rfl, hq⟩
  · exact absurd he (Program.not_mayAsk_done _ _)

/-- A pass itself makes requests only. -/
theorem pass_errands (resync : Duration) (r : Record) :
    ((pass resync r).run Neighbour.errand).OnlyAsks
      fun e => ∃ n q, e = .request n q ∧ (pass resync r).MayAsk n ∧ n.overWire.MayAsk q := by
  intro e he
  obtain ⟨n, hn, he⟩ := Program.exists_mayAsk_of_run he
  obtain ⟨q, rfl, hq⟩ := n.errand_request e he
  exact ⟨n, q, rfl, hn, hq⟩

theorem supervised_concerns (settings : ControllerSettings) {r : Record} (hr : r.Named) :
    (supervised settings r).OnlyAsks (·.Concerns r) := by
  refine Program.onlyAsks_bind ?_ fun result => Program.onlyAsks_ask rfl fun _ => ?_
  · intro e he
    obtain ⟨n, q, rfl, hn, hq⟩ := pass_errands settings.resync r e he
    exact Neighbour.concerns_of_mayAsk hr (pass_concerns _ r n hn) hq
  · cases result with
    | ok outcome => exact Program.onlyAsks_done _
    | error e => exact Program.onlyAsks_ask rfl fun _ => Program.onlyAsks_done _

/-! ## What passes share -/

/-- Everything that two passes share: the connectors, the records, and the controller.
Each of the two reads a clock of its own. -/
structure Commons (Place C R : Type) where
  /-- The connectors. -/
  connectors : Place → C
  /-- The records, by namespace and name. -/
  records : String × String → R
  /-- The controller. -/
  controller : Controller
  /-- The readings to come of the clock, for either pass. -/
  clocks : Bool → Stream' Timestamp

/-- How requests are answered: from the state of the connector or of the record that
they are about, and with an effect on that alone. -/
structure Systems (Place C R : Type) where
  /-- The connector that an address leads to. -/
  place : Connect.Address → Place
  /-- The answer to a request about a connector. -/
  cluster : Http.Request → C → Option Http.Response × C
  /-- The answer to a request about a record. -/
  api : Api.Request → R → Api.Reply × R
  /-- The answer of the API server to a request about no record. -/
  elsewhere : Api.Request → Api.Reply

section Systems

variable {Place C R : Type} [DecidableEq Place]

/-- What an errand of one of the two passes does.  A request is led to a connector by its
address, or to a record by its path.  The time that the pass took is read when it is
over. -/
def Systems.act (sys : Systems Place C R) (settings : ControllerSettings) (side : Bool)
    (elapsed : Duration) : Acts Errand Errand.Reply (Commons Place C R)
  | .request _ (.cluster q), s =>
      let place := sys.place (Connect.address q)
      let answer := sys.cluster q (s.connectors place)
      (answer.1, { s with connectors := Function.update s.connectors place answer.2 })
  | .request _ (.api q), s =>
      match Store.named? q.path with
      | some name =>
          let answer := sys.api q (s.records name)
          (answer.1, { s with records := Function.update s.records name answer.2 })
      | none => (sys.elsewhere q, s)
  | .request _ .clock, s =>
      ((s.clocks side).head,
        { s with clocks := Function.update s.clocks side (s.clocks side).tail })
  | .conclude r result, s =>
      ((), { s with controller := s.controller.recordPass r result elapsed })
  | .heed r e, s =>
      let heeded := s.controller.heed settings.backoff r e
      (heeded.2, { s with controller := heeded.1 })

/-- A request leaves the controller as it is. -/
theorem Systems.controller_request (sys : Systems Place C R) (settings : ControllerSettings)
    (side : Bool) (elapsed : Duration) (n : Neighbour) (q : Wire) (s : Commons Place C R) :
    (sys.act settings side elapsed (.request n q) s).2.controller = s.controller := by
  cases q with
  | cluster q => rfl
  | api q => cases hname : Store.named? q.path <;> simp [act, hname]
  | clock => rfl

/-- By itself, a supervised pass leaves the controller as it is after the pass and the
heeding of its error. -/
theorem Systems.play_supervised (sys : Systems Place C R) (settings : ControllerSettings)
    (side : Bool) (elapsed : Duration) (r : Record) (s : Commons Place C R) :
    let run := Program.play (sys.act settings side elapsed) (supervised settings r) s
    (run.2.controller, run.1.result.2) =
      s.controller.afterPass settings r run.1.result.1 elapsed := by
  have hpass : (Program.play (sys.act settings side elapsed)
      ((pass settings.resync r).run Neighbour.errand) s).2.controller = s.controller := by
    refine Program.view_play (pass_errands settings.resync r) ?_ s
    rintro e s ⟨n, q, rfl, -⟩
    exact sys.controller_request settings side elapsed n q s
  simp only [supervised, Program.bind_eq, Program.play_bind]
  rw [← hpass]
  cases (Program.play (sys.act settings side elapsed)
    ((pass settings.resync r).run Neighbour.errand) s).1.result <;> rfl

/-! ## What a pass touches -/

/-- What a pass over a record touches. -/
structure View (Place C R : Type) where
  /-- The connectors that the addresses of its record lead to.  There is one if that has a
  plain name. -/
  connectors : Place → Option C
  /-- The record. -/
  record : R
  /-- The failures of its key in a row. -/
  failures : Nat
  /-- The readings to come of its clock. -/
  clock : Stream' Timestamp

/-- Where a pass over a record goes. -/
def Systems.Reaches (sys : Systems Place C R) (r : Record) (place : Place) : Prop :=
  place ∈ r.addresses.map sys.place

instance (sys : Systems Place C R) (r : Record) : DecidablePred (sys.Reaches r) :=
  fun place => inferInstanceAs (Decidable (place ∈ r.addresses.map sys.place))

/-- What a pass over a record touches, of all that is shared. -/
def Commons.view (sys : Systems Place C R) (side : Bool) (r : Record) (s : Commons Place C R) :
    View Place C R where
  connectors place := if sys.Reaches r place then some (s.connectors place) else none
  record := s.records r.identity
  failures := s.controller.failures.count r.key
  clock := s.clocks side

/-- What an errand does to what its pass touches. -/
def Systems.own (sys : Systems Place C R) (settings : ControllerSettings) :
    Acts Errand Errand.Reply (View Place C R)
  | .request _ (.cluster q), v =>
      let place := sys.place (Connect.address q)
      match v.connectors place with
      | some c =>
          let answer := sys.cluster q c
          (answer.1, { v with connectors := Function.update v.connectors place (some answer.2) })
      | none => (none, v)
  | .request _ (.api q), v =>
      let answer := sys.api q v.record
      (answer.1, { v with record := answer.2 })
  | .request _ .clock, v => (v.clock.head, { v with clock := v.clock.tail })
  | .conclude _ (.ok _), v => ((), { v with failures := 0 })
  | .conclude _ (.error _), v => ((), v)
  | .heed _ e, v =>
      let failures := (v.failures + 1) % 0x1_0000_0000
      (settings.backoff.requeue failures e.kind, { v with failures })

end Systems

/-! ### The counts of failures -/

namespace Failures

variable {f : Failures} {key key' : String}

theorem count_reset_self : (f.reset key).count key = 0 := by
  simp [count, reset]

theorem count_reset_of_ne (h : key' ≠ key) : (f.reset key).count key' = f.count key' := by
  simp [count, reset, StringMap.get?_erase_of_ne _ h]

theorem count_increment_self :
    (f.increment key).count key = (f.count key + 1) % 0x1_0000_0000 := by
  simp [count, increment, StringMap.get?_insert]

theorem count_increment_of_ne (h : key' ≠ key) :
    (f.increment key).count key' = f.count key' := by
  simp [count, increment, StringMap.get?_insert, h]

end Failures

section Systems

variable {Place C R : Type}

/-- Two records with nothing in common: they are others by name, as a key and in the
connector that they name. -/
structure Systems.Apart (sys : Systems Place C R) (r r' : Record) : Prop where
  /-- The records are others. -/
  identity : r.identity ≠ r'.identity
  /-- Their failures are counted apart. -/
  key : r.key ≠ r'.key
  /-- They name different connectors. -/
  place : ∀ a ∈ r.addresses, ∀ a' ∈ r'.addresses, sys.place a ≠ sys.place a'

theorem Systems.Apart.symm {sys : Systems Place C R} {r r' : Record} (h : sys.Apart r r') :
    sys.Apart r' r :=
  ⟨h.identity.symm, h.key.symm, fun a ha a' ha' => (h.place a' ha' a ha).symm⟩

variable [DecidableEq Place] {sys : Systems Place C R}
  {settings : ControllerSettings} {side : Bool} {elapsed : Duration} {r r' : Record} {e : Errand}

/-- What is done for a pass depends on what it touches, and changes it alike. -/
theorem Systems.own_eq (h : e.Concerns r) (s : Commons Place C R) :
    sys.own settings e (s.view sys side r) = ((sys.act settings side elapsed e s).1,
      (sys.act settings side elapsed e s).2.view sys side r) := by
  cases e with
  | request n q =>
    cases q with
    | cluster q =>
      have hreach : sys.Reaches r (sys.place (Connect.address q)) :=
        List.mem_map.2 ⟨_, h, rfl⟩
      simp only [own, act, Commons.view, hreach, if_true]
      refine Prod.ext rfl ?_
      simp only [View.mk.injEq, and_true]
      funext place
      by_cases hsame : place = sys.place (Connect.address q)
      · simp [hsame, hreach]
      · simp [hsame]
    | api q =>
      have hname : Store.named? q.path = some r.identity := h
      simp [own, act, hname, Commons.view]
    | clock => simp [own, act, Commons.view]
  | conclude r₀ result =>
    obtain rfl : r₀ = r := h
    cases result with
    | ok outcome => simp [own, act, Commons.view, Controller.recordPass, Failures.count_reset_self]
    | error e => simp [own, act, Commons.view, Controller.recordPass]
  | heed r₀ e =>
    obtain rfl : r₀ = r := h
    simp [own, act, Commons.view, Controller.heed, Failures.count_increment_self]

/-- What is done for another pass does not change it. -/
theorem Systems.Apart.view_eq (hapart : sys.Apart r r') (h : e.Concerns r')
    (s : Commons Place C R) :
    (sys.act settings (!side) elapsed e s).2.view sys side r = s.view sys side r := by
  cases e with
  | request n q =>
    cases q with
    | cluster q =>
      have hne (place : Place) (hreach : sys.Reaches r place) :
          place ≠ sys.place (Connect.address q) := by
        obtain ⟨a, ha, rfl⟩ := List.mem_map.1 hreach
        exact hapart.place a ha _ h
      simp only [act, Commons.view, View.mk.injEq, and_true]
      funext place
      split
      · next hreach => simp [hne place hreach]
      · rfl
    | api q =>
      have hname : Store.named? q.path = some r'.identity := h
      simp [act, hname, Commons.view, hapart.identity]
    | clock => simp [act, Commons.view]
  | conclude r₀ result =>
    obtain rfl : r₀ = r' := h
    cases result with
    | ok outcome =>
      simp [act, Commons.view, Controller.recordPass, Failures.count_reset_of_ne hapart.key]
    | error e => simp [act, Commons.view, Controller.recordPass]
  | heed r₀ e =>
    obtain rfl : r₀ = r' := h
    simp [act, Commons.view, Controller.heed, Failures.count_increment_of_ne hapart.key]

theorem Systems.own_view (hapart : sys.Apart r r') (elapsed elapsed' : Duration) :
    Own (sys.act settings side elapsed) (sys.act settings (!side) elapsed') (Errand.Concerns r)
      (Errand.Concerns r') (Commons.view sys side r) (sys.own settings) where
  here _ s h := own_eq h s
  there _ s h := hapart.view_eq h s

end Systems

/-! ## Keys -/

/-- A namespace without a slash can be told from the name after it. -/
theorem Record.identity_of_key {r r' : Record} (hr : r.Named) (hr' : r'.Named)
    (h : r.key = r'.key) : r.identity = r'.identity := by
  have hchars := congrArg String.toList h
  simp only [key, String.toList_append] at hchars
  have hsplit (a b : List Char) (ha : '/' ∉ a) :
      (a ++ "/".toList ++ b).takeWhile (· ≠ '/') = a := by
    rw [List.append_assoc, List.takeWhile_append_of_pos]
    · simp
    · intro c hc
      simpa using ne_of_mem_of_not_mem hc ha
  have hsame := congrArg (List.takeWhile (· ≠ '/')) hchars
  rw [hsplit _ _ hr.slash, hsplit _ _ hr'.slash] at hsame
  rw [hsame, List.append_cancel_left_eq] at hchars
  exact Prod.ext (String.toList_inj.1 hsame) (String.toList_inj.1 hchars)

/-! ## Counters -/

namespace Metrics

/-- The counts, without the time that passes took. -/
def counters (m : Metrics) : Metrics := { m with seconds := 0 }

theorem bump_comm (counts : StringMap Nat) (a b : String) :
    bump (bump counts a) b = bump (bump counts b) a := by
  by_cases h : a = b
  · rw [h]
  · simp only [bump, StringMap.get?_insert, h, Ne.symm h, if_false]
    exact StringMap.insert_comm counts h _ _

end Metrics

/-- What an errand adds to the counts. -/
def Errand.count : Errand → Metrics → Metrics
  | .conclude _ (.ok outcome), m =>
      (m.recordSuccess outcome.action.name (.ofSeconds 0)).counters
  | .conclude _ (.error e), m => (m.recordFailure e.reason (.ofSeconds 0)).counters
  | .request .., m | .heed .., m => m

theorem Errand.count_comm (e e' : Errand) (m : Metrics) :
    e.count (e'.count m) = e'.count (e.count m) := by
  cases e with
  | request | heed => rfl
  | conclude r result =>
    cases e' with
    | request | heed => rfl
    | conclude r' result' =>
      cases result <;> cases result' <;>
        simp [count, Metrics.recordSuccess, Metrics.recordFailure, Metrics.time, Metrics.counters,
          Metrics.bump_comm]

theorem Controller.counters_recordPass (c : Controller) (r : Record)
    (result : Except PassError Outcome) (elapsed : Duration) :
    (c.recordPass r result elapsed).metrics.counters =
      (Errand.conclude r result).count c.metrics.counters := by
  cases result <;>
    simp [recordPass, Errand.count, Metrics.counters, Metrics.recordSuccess,
      Metrics.recordFailure, Metrics.time]

section Systems

variable {Place C R : Type} [DecidableEq Place] {sys : Systems Place C R}
  {settings : ControllerSettings} {r r' : Record}

theorem Systems.adds_count (side : Bool) (elapsed : Duration) :
    Adds (sys.act settings side elapsed) (fun s => s.controller.metrics.counters)
      Errand.count := by
  intro e s
  cases e with
  | request n q =>
    exact congrArg (·.metrics.counters) (sys.controller_request settings side elapsed n q s)
  | conclude r result => exact s.controller.counters_recordPass r result elapsed
  | heed r e => rfl

/-! ## Interleavings -/

/-- Two runs of two passes that differ at most in the time they took. -/
structure Systems.Alike (sys : Systems Place C R) (r r' : Record)
    (b b' : Both Errand.Reply (Except PassError Outcome × Requeue)
      (Except PassError Outcome × Requeue) (Commons Place C R)) : Prop where
  /-- The first pass made the same requests and ended alike. -/
  first : b.first = b'.first
  /-- So did the second. -/
  second : b.second = b'.second
  /-- What the first pass touches is the same. -/
  firstView : b.state.view sys false r = b'.state.view sys false r
  /-- So is what the second touches. -/
  secondView : b.state.view sys true r' = b'.state.view sys true r'
  /-- The counters are the same. -/
  counters : b.state.controller.metrics.counters = b'.state.controller.metrics.counters

/-- Any two interleavings of passes over records with nothing in common are alike. -/
theorem Systems.Apart.alike (h : sys.Apart r r') (hr : r.Named) (hr' : r'.Named)
    {t t' u u' : Duration} {s : Commons Place C R}
    {b b' : Both Errand.Reply (Except PassError Outcome × Requeue)
      (Except PassError Outcome × Requeue) (Commons Place C R)}
    (hb : Interleaved (sys.act settings false t) (sys.act settings true t')
      (supervised settings r) (supervised settings r') s b)
    (hb' : Interleaved (sys.act settings false u) (sys.act settings true u')
      (supervised settings r) (supervised settings r') s b') : sys.Alike r r' b b' := by
  have hasks := supervised_concerns settings hr
  have hasks' := supervised_concerns settings hr'
  have hfirst := (hb.first_eq (own_view h t t') hasks hasks').symm.trans
    (hb'.first_eq (own_view h u u') hasks hasks')
  have hsecond := (hb.second_eq (own_view h.symm t' t) hasks hasks').symm.trans
    (hb'.second_eq (own_view h.symm u' u) hasks hasks')
  obtain ⟨hfirst, hview⟩ := Prod.mk.inj hfirst
  obtain ⟨hsecond, hview'⟩ := Prod.mk.inj hsecond
  refine ⟨hfirst, hsecond, hview, hview', ?_⟩
  rw [hb.total_eq (adds_count false t) (adds_count true t') Errand.count_comm,
    hb'.total_eq (adds_count false u) (adds_count true u') Errand.count_comm, hfirst, hsecond]

/-- A run is one of a pass over a record, which sends nothing about others. -/
structure Supervises (settings : ControllerSettings) (r : Record)
    (ran : Ran Errand.Reply (Except PassError Outcome × Requeue)) : Prop where
  /-- What it exchanges on the wire, the pass does. -/
  trace : (pass settings.resync r).overWire.Trace (ran.exchanges.filterMap Errand.sent?)
    ran.result.1
  /-- Each request is about the record, or the connector that this names. -/
  concerns : ∀ x ∈ ran.exchanges.filterMap Errand.sent?, x.1.Concerns r

theorem supervises_of_trace {ran : Ran Errand.Reply (Except PassError Outcome × Requeue)}
    (hr : r.Named) (h : (supervised settings r).Trace ran.exchanges ran.result) :
    Supervises settings r ran where
  trace := pass_of_supervised h
  concerns _ hx := pass_requests settings.resync hr _
    (Program.mayAsk_of_trace (pass_of_supervised h) hx)

/-- Passes over different records, which name different connectors, do as they would one
after the other, in either order: each sends what it would, about nothing but its own
record and connector, and the controller heeds them one after the other. -/
theorem Systems.alike_of_interleaved (hr : r.Named) (hr' : r'.Named)
    (hidentity : r.identity ≠ r'.identity)
    (hplace : ∀ a ∈ r.addresses, ∀ a' ∈ r'.addresses, sys.place a ≠ sys.place a')
    {t t' : Duration} {s : Commons Place C R}
    {b : Both Errand.Reply (Except PassError Outcome × Requeue)
      (Except PassError Outcome × Requeue) (Commons Place C R)}
    (h : Interleaved (sys.act settings false t) (sys.act settings true t')
      (supervised settings r) (supervised settings r') s b) (u u' : Duration) :
    let one := inTurn (sys.act settings false u) (sys.act settings true u')
      (supervised settings r) (supervised settings r') s
    let other := inTurn (sys.act settings true u') (sys.act settings false u)
      (supervised settings r') (supervised settings r) s
    let after := s.controller.afterPass settings r b.first.result.1 u
    Supervises settings r b.first ∧ Supervises settings r' b.second ∧
      sys.Alike r r' b one ∧ sys.Alike r r' b other.swap ∧ b.first.result.2 = after.2 ∧
      (one.state.controller, b.second.result.2) =
        after.1.afterPass settings r' b.second.result.1 u' := by
  intro one other after
  have hapart : sys.Apart r r' :=
    ⟨hidentity, fun hkey => hidentity (Record.identity_of_key hr hr' hkey), hplace⟩
  have hone : sys.Alike r r' b one := hapart.alike hr hr' h (Program.interleaved_inTurn ..)
  have hother : sys.Alike r r' b other.swap :=
    hapart.alike hr hr' h (Program.interleaved_inTurn ..).swap
  have htrace : (supervised settings r).Trace b.first.exchanges b.first.result := by
    rw [hone.first]
    exact Program.trace_play ..
  have htrace' : (supervised settings r').Trace b.second.exchanges b.second.result := by
    rw [hone.second]
    exact Program.trace_play ..
  let between := (Program.play (sys.act settings false u) (supervised settings r) s).2
  have hafter : (between.controller, b.first.result.2) = after := by
    simp only [after, hone.first]
    exact sys.play_supervised settings false u r s
  have hafter' : (one.state.controller, b.second.result.2) =
      between.controller.afterPass settings r' b.second.result.1 u' := by
    rw [hone.second]
    exact sys.play_supervised settings true u' r' between
  rw [← hafter]
  exact ⟨supervises_of_trace hr htrace, supervises_of_trace hr' htrace', hone, hother, rfl,
    hafter'⟩

end Systems

/-- Clusters that know whether a connector is there, or do not answer at all.  The API
server counts the patches of a record and never answers. -/
def Systems.counting : Systems Connect.Address (Option Bool) Nat where
  place := id
  cluster
    | _, none => (none, none)
    | q, some there =>
        if q.method = .post then (some ⟨201, none⟩, some true)
        else (some ⟨if there then 200 else 404, none⟩, some there)
  api _ patches := (.dropped "", patches + 1)
  elsewhere _ := .dropped ""

/-- One pass creates a connector, while one over another record gets no answer. -/
theorem Systems.alike_of_interleaved_orders :
    let host := "http://dbz:8083"
    let record (name : String) : Record :=
      ⟨{ Metadata.empty with namespaceName := some "prod", name := some name,
                             finalizers := some [finalizer] },
        ⟨host, .ofList [("name", name)]⟩, none⟩
    let r := record "orders"
    let r' := record "users"
    let act := counting.act {}
    let s : Commons Connect.Address (Option Bool) Nat :=
      ⟨fun a => if a.name = some (Text.utf8 "orders") then some false else none, fun _ => 0,
        .initial, fun _ => Stream'.const ⟨0, 0⟩⟩
    let b := Program.weave (act false (.ofSeconds 1)) (act true (.ofSeconds 2))
      [false, true, true, false] (supervised {} r) (supervised {} r') s
    b.first.result = (.ok ⟨.create, some (.ofSeconds 60)⟩, .after (.ofSeconds 60)) ∧
      b.second.result = (.error (.cluster (.noResponse "http://dbz:8083/connectors/users")),
        .after (.ofSeconds 5)) ∧
      b.state.records r.identity = 1 ∧ b.state.records r'.identity = 0 ∧
      r.addresses.map b.state.connectors = List.replicate 4 (some true) ∧
      counting.Alike r r' b (inTurn (act false (.ofSeconds 3)) (act true (.ofSeconds 4))
        (supervised {} r) (supervised {} r') s) := by
  intro host record r r' act s b
  have hr (name : String) (h : Api.Segment name) : (record name).Named := by
    constructor
    · rintro _ ⟨⟩
      decide
    · rintro _ ⟨⟩
      exact h
  have hname (name : String) (hplain : Url.Plain name) :
      ∀ a ∈ (record name).addresses, a.name = some (Text.utf8 name) := by
    intro a ha
    obtain ⟨base, hbase⟩ := Option.isSome_iff_exists.1
      (show (Url.parse? host).isSome = true by decide +kernel)
    have hstem : ∀ base ∈ Url.parse? host, base.stem.getLast? ≠ some "connectors" := by
      decide +kernel
    have hhost : Url.parse? (record name).spec.host = some base := hbase
    have hconnector : (record name).connectorName = some name := rfl
    rw [Record.addresses_of_plain hhost hconnector hplain (hstem base hbase) ha]
  have hplace : ∀ a ∈ r.addresses, ∀ a' ∈ r'.addresses, counting.place a ≠ counting.place a' := by
    intro a ha a' ha' hsame
    have hnames : some (Text.utf8 "orders") = some (Text.utf8 "users") := by
      rw [← hname "orders" (by decide +kernel) a ha, ← hname "users" (by decide +kernel) a' ha']
      exact congrArg Connect.Address.name hsame
    exact absurd hnames (by decide +kernel)
  have halike := alike_of_interleaved (hr "orders" (by decide))
    (hr "users" (by decide)) (by decide) hplace
    (Program.interleaved_weave (act false (.ofSeconds 1)) (act true (.ofSeconds 2))
      [false, true, true, false] (supervised {} r) (supervised {} r') s)
    (.ofSeconds 3) (.ofSeconds 4)
  exact ⟨by decide +kernel, by decide +kernel, by decide +kernel, by decide +kernel,
    by decide +kernel, halike.2.2.1⟩

end ConnectorKeeper
