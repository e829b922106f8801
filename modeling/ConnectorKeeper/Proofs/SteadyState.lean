import ConnectorKeeper.Proofs.ClusterRequests
import ConnectorKeeper.Proofs.ConditionMerges
import ConnectorKeeper.Proofs.FaithfulPass

/-!
# Steady state

In a faithful world in which the runtime status of a connector always reads alike,
passes over a live record come to rest.  The first puts all in order, the second
reports that nothing was to be done, and every later one only looks and leaves the
world exactly as it is.

The report stops because a status that says something already stays as it is when
that is reported again at another time (`Status.next_next`).  So a record at rest has
a status that is its own successor (`World.AtRest`).
-/

namespace ConnectorKeeper

namespace World

open Program (Carries Ensures Exchange Exchanged)

variable {runtimes : Except ClusterError RuntimeStatus → Prop} {s s' : World} {name : String}
  {asked : List Neighbour} {action : Action}

/-! ## Worlds at rest -/

/-- All is in order, and the record says so. -/
structure AtRest (s : World) (name : String) (runtime : Option RuntimeStatus) : Prop
    extends s.Settled name where
  /-- The status is what a pass would report, whenever it does. -/
  reported : ∃ st, s.record.status = some st ∧ ∀ now, st.next (phaseOf runtime)
    (.synced "InSync" "Connector config matches resource" now) = st

theorem Reported.status {phase : Phase} {reason message : String}
    (h : Reported s s.record phase reason message asked s') : ∃ now,
      s'.record.status = some (s.record.currentStatus.next phase (.synced reason message now)) := by
  cases h with
  | unchanged now hst hsame => exact ⟨_, hst ▸ hsame⟩
  | written now hst _ hstored => exact ⟨_, hst ▸ hstored.status⟩

theorem Settled.atRest_of_passed {runtime : Option RuntimeStatus} (hsettled : s.Settled name)
    (h : s.Passed (·.toOption = runtime) name asked s' action) : s'.AtRest name runtime := by
  refine ⟨h.settled hsettled.toManageable, ?_⟩
  obtain ⟨-, reply, v, rfl, -, hreport⟩ := hsettled.of_passed h
  obtain ⟨now, hstatus⟩ := hreport.status
  exact ⟨_, hstatus, fun later => Status.next_next ..⟩

/-- A pass over a world at rest looks, and leaves it as it is. -/
theorem AtRest.of_passed {runtime : Option RuntimeStatus} (hrest : s.AtRest name runtime)
    (h : s.Passed (·.toOption = runtime) name asked s' action) :
    action = .noAction ∧ s' = s ∧ asked = [.lookup s.record.spec.host name,
      .readConfig s.record.spec.host name, .readStatus s.record.spec.host name, .clock] := by
  obtain ⟨rfl, reply, v, rfl, rfl, hreport⟩ := hrest.toSettled.of_passed h
  obtain ⟨st, hstatus, hnext⟩ := hrest.reported
  cases hreport with
  | unchanged => exact ⟨rfl, rfl, rfl⟩
  | written now hst hnew =>
    refine absurd ?_ hnew
    rw [hst, Record.currentStatus, hstatus, Option.getD_some, hnext]

/-! ## Requests of a pass that looks -/

/-- On the wire, looking at a connector that is there takes three requests to the cluster. -/
theorem requests_of_look {host : String} {config : Config} {w : List (Exchange Neighbour.Reply)}
    {v : List (Exchange Wire.Reply)} (hconnector : s.connectors (host, name) = some config)
    (hasked : w.map (·.1) =
      [.lookup host name, .readConfig host name, .readStatus host name, .clock])
    (hexchanged : Exchanged (answers runtimes) s w s') (hv : Carries Neighbour.overWire w v) :
    ∃ q₁ q₂ q₃, v.map (·.1) = [.cluster q₁, .cluster q₂, .cluster q₃, .clock] ∧
      q₁.method = .get ∧ q₂.method = .get ∧ q₃.method = .get := by
  simp only [List.map_eq_cons_iff, List.map_eq_nil_iff] at hasked
  obtain ⟨⟨_, found⟩, w, rfl, rfl, ⟨_, config'⟩, w, rfl, rfl, ⟨_, status⟩, w, rfl, rfl, ⟨_, now⟩, w,
    rfl, rfl, rfl⟩ := hasked
  obtain ⟨s₁, ⟨rfl, hfound⟩, hrest⟩ := Program.exchanged_cons_iff.1 hexchanged
  obtain ⟨s₂, ⟨rfl, hread⟩, -⟩ := Program.exchanged_cons_iff.1 hrest
  simp only [hconnector] at hfound hread
  subst hfound hread
  obtain ⟨v₁, _, hlookup, hv₁, rfl⟩ := Program.carries_cons_iff.1 hv
  obtain ⟨v₂, _, hreadConfig, hv₂, rfl⟩ := Program.carries_cons_iff.1 hv₁
  obtain ⟨v₃, _, hreadStatus, hv₃, rfl⟩ := Program.carries_cons_iff.1 hv₂
  obtain ⟨v₄, _, hclock, hv₄, rfl⟩ := Program.carries_cons_iff.1 hv₃
  obtain rfl := Program.carries_nil_iff.1 hv₄
  have hreaches := Connect.reaches_of_trace hreadConfig
  obtain ⟨q₁, hq₁, hmethod₁⟩ := (Connect.reaches_of_trace hlookup).one_request hlookup
  obtain ⟨q₂, hq₂, hmethod₂⟩ := hreaches.one_request hreadConfig
  -- the runtime status may not be had, but it is asked for
  obtain ⟨q₃, hq₃, hmethod₃⟩ := hreaches.status.one_request hreadStatus
  obtain ⟨now', w, rfl, hend⟩ := Program.trace_ask_iff.1 hclock
  obtain ⟨rfl, -⟩ := Program.trace_done_iff.1 hend
  refine ⟨q₁, q₂, q₃, ?_, hmethod₁, hmethod₂, hmethod₃⟩
  simp only [List.map_append, hq₁, hq₂, hq₃]
  rfl

/-! ## Passes in turn -/

/-- What holds after passes in turn, each over the record as the one before left it. -/
def AfterPasses (runtimes : Except ClusterError RuntimeStatus → Prop) (resync : Duration) :
    Nat → World → (World → Prop) → Prop
  | 0, s, goal => goal s
  | n + 1, s, goal => (pass resync s.record).Ensures (answers runtimes) s fun _ s' _ =>
      AfterPasses runtimes resync n s' goal

/-- Some passes, then some more. -/
theorem AfterPasses.add {goal goal' : World → Prop} {resync : Duration} {m n : Nat}
    (h : AfterPasses runtimes resync m s goal)
    (hgoal : ∀ s, goal s → AfterPasses runtimes resync n s goal') :
    AfterPasses runtimes resync (m + n) s goal' := by
  induction m generalizing s with
  | zero =>
    rw [Nat.zero_add]
    exact hgoal s h
  | succ m ih =>
    rw [Nat.succ_add]
    refine Ensures.mono h ?_
    intro w s' result hs'
    exact ih hs'

theorem AfterPasses.mono {goal goal' : World → Prop} {resync : Duration} {n : Nat}
    (h : AfterPasses runtimes resync n s goal) (hgoal : ∀ s, goal s → goal' s) :
    AfterPasses runtimes resync n s goal' :=
  AfterPasses.add (n := 0) h hgoal

/-- What every pass preserves holds after any number of them. -/
theorem afterPasses_of_step {invariant : World → Prop} {resync : Duration}
    (hstep : ∀ s, invariant s →
      (pass resync s.record).Ensures (answers runtimes) s fun _ s' _ => invariant s')
    (n : Nat) (h : invariant s) : AfterPasses runtimes resync n s invariant := by
  induction n generalizing s with
  | zero => exact h
  | succ n ih =>
    refine (hstep s h).mono ?_
    intro w s' result hs'
    exact ih hs'

section Rest

variable {runtime : Option RuntimeStatus}

theorem exists_reply (runtime : Option RuntimeStatus) :
    ∃ reply : Except ClusterError RuntimeStatus, reply.toOption = runtime := by
  cases runtime with
  | none => exact ⟨.error (.decode ""), rfl⟩
  | some status => exact ⟨.ok status, rfl⟩

/-- Two passes bring a world to rest. -/
theorem Manageable.afterPasses_two (h : s.Manageable name) (resync : Duration) :
    AfterPasses (·.toOption = runtime) resync 2 s (·.AtRest name runtime) := by
  refine (ensures_pass h (exists_reply runtime) resync).mono ?_
  rintro w₁ s₁ result ⟨action, -, hfirst⟩
  have hsettled := hfirst.settled h
  refine (ensures_pass hsettled.toManageable (exists_reply runtime) resync).mono ?_
  rintro w₂ s₂ result ⟨action, -, hsecond⟩
  exact hsettled.atRest_of_passed hsecond

/-- A pass over a world at rest asks what is there, and no more. -/
theorem AtRest.ensures_look (hrest : s.AtRest name runtime) (resync : Duration) :
    (pass resync s.record).Ensures (answers (·.toOption = runtime)) s fun w s' result =>
      result = .ok ⟨.noAction, some resync⟩ ∧ s' = s ∧
      w.map (·.1) = [.lookup s.record.spec.host name, .readConfig s.record.spec.host name,
        .readStatus s.record.spec.host name, .clock] ∧
      ∀ v, Carries Neighbour.overWire w v → ∃ q₁ q₂ q₃,
        v.map (·.1) = [.cluster q₁, .cluster q₂, .cluster q₃, .clock] ∧
          q₁.method = .get ∧ q₂.method = .get ∧ q₃.method = .get := by
  refine (ensures_pass hrest.toManageable (exists_reply runtime) resync).exchanged.mono ?_
  rintro w s' result ⟨⟨action, rfl, hpassed⟩, hexchanged⟩
  obtain ⟨rfl, rfl, hasked⟩ := hrest.of_passed hpassed
  refine ⟨rfl, rfl, hasked, ?_⟩
  intro v hv
  exact requests_of_look hrest.connector hasked hexchanged hv

theorem AtRest.afterPasses (hrest : s.AtRest name runtime) (resync : Duration) (n : Nat) :
    AfterPasses (·.toOption = runtime) resync n s (·.AtRest name runtime) := by
  refine afterPasses_of_step ?_ n hrest
  intro s hrest
  refine (hrest.ensures_look resync).mono ?_
  rintro w s' result ⟨-, rfl, -⟩
  exact hrest

end Rest

/-- The third pass over a live record and every later one asks what is there and leaves
everything as it is.  On the wire these are three requests to the cluster, and none to
the API server. -/
theorem silent_after_two_passes (h : s.Manageable name) (runtime : Option RuntimeStatus)
    (resync : Duration) {n : Nat} (hn : 2 ≤ n) :
    AfterPasses (·.toOption = runtime) resync n s fun s =>
      (pass resync s.record).Ensures (answers (·.toOption = runtime)) s fun w s' result =>
        result = .ok ⟨.noAction, some resync⟩ ∧ s' = s ∧
        w.map (·.1) = [.lookup s.record.spec.host name, .readConfig s.record.spec.host name,
          .readStatus s.record.spec.host name, .clock] ∧
        ∀ v, Carries Neighbour.overWire w v → ∃ q₁ q₂ q₃,
          v.map (·.1) = [.cluster q₁, .cluster q₂, .cluster q₃, .clock] ∧
            q₁.method = .get ∧ q₂.method = .get ∧ q₃.method = .get := by
  obtain ⟨n, rfl⟩ := Nat.exists_eq_add_of_le hn
  refine AfterPasses.add (h.afterPasses_two resync) ?_
  intro s hrest
  refine (hrest.afterPasses resync n).mono ?_
  intro s hrest
  exact hrest.ensures_look resync

/-- A new record, whose connector is created by the first pass. -/
theorem orders_silent :
    let s : World := ⟨.orders, fun _ => none⟩
    s.Manageable "orders" ∧ s.due "orders" = .create ∧
      AfterPasses (·.toOption = none) (.ofSeconds 60) 2 s fun s =>
        (pass (.ofSeconds 60) s.record).Ensures (answers (·.toOption = none)) s
          fun w s' result => result = .ok ⟨.noAction, some (.ofSeconds 60)⟩ ∧ s' = s ∧
            w.map (·.1) = [.lookup s.record.spec.host "orders",
              .readConfig s.record.spec.host "orders", .readStatus s.record.spec.host "orders",
              .clock] := by
  intro s
  have hmanageable : s.Manageable "orders" := orders_manageable _
  refine ⟨hmanageable, by decide +kernel, ?_⟩
  refine (silent_after_two_passes hmanageable none _ (Nat.le_refl 2)).mono ?_
  intro s hpass
  refine hpass.mono ?_
  rintro w s' result ⟨hresult, hs', hasked, -⟩
  exact ⟨hresult, hs', hasked⟩

end World

end ConnectorKeeper
