import ConnectorKeeper.Proofs.ClusterRequests
import ConnectorKeeper.Proofs.FaithfulPass

/-!
# Convergence

In a faithful world one pass is enough: whatever the clusters and the record look
like, it succeeds, and then the connector of the record has the configuration that the
record wants, the finalizer guards it, and all other connectors are as they were.
What the pass did is what was due (`World.due`), and after it nothing is: a
further pass only looks.
-/

namespace ConnectorKeeper

namespace World

open Program (Ensures)

variable {runtimes : Except ClusterError RuntimeStatus → Prop} {s s' : World} {name : String}

theorem Reported.keeps_connectors {r : Record} {phase : Phase} {reason message : String}
    {v : List Neighbour} (h : Reported s r phase reason message v s') :
    ∀ n ∈ v, n.changesConnector = false := by
  cases h with
  | unchanged => simp [Neighbour.changesConnector]
  | written => simp [Neighbour.changesConnector]

/-- A pass over a settled world changes no connector. -/
theorem Settled.ensures_pass (h : s.Settled name) (hruntimes : ∃ runtime, runtimes runtime)
    (resync : Duration) :
    (pass resync s.record).Ensures (answers runtimes) s fun w s' result =>
      result = .ok ⟨.noAction, some resync⟩ ∧ s'.connectors = s.connectors ∧
        ∀ x ∈ w, x.1.changesConnector = false := by
  refine (World.ensures_pass h.toManageable hruntimes resync).mono ?_
  rintro w s' result ⟨action, rfl, hpassed⟩
  obtain ⟨rfl, runtime, v, -, hasked, hreport⟩ := h.of_passed hpassed
  refine ⟨rfl, hreport.connectors, ?_⟩
  intro x hx
  have hmem : x.1 ∈ w.map (·.1) := List.mem_map_of_mem hx
  rw [hasked, List.mem_append] at hmem
  obtain hread | hreported := hmem
  · simp only [List.mem_cons, List.not_mem_nil, or_false] at hread
    obtain heq | heq | heq := hread
    all_goals
      rw [heq]
      rfl
  · exact hreport.keeps_connectors _ hreported

/-- One pass does what is due, and nothing is due after it. -/
theorem pass_converges (h : s.Manageable name) (resync : Duration) :
    (pass resync s.record).Ensures (answers fun _ => True) s fun _ s' result =>
      result = .ok ⟨s.due name, some resync⟩ ∧
      s'.connectors = Function.update s.connectors (s.record.spec.host, name)
        (some s.record.spec.config) ∧
      s'.record.spec = s.record.spec ∧ s'.record.finalizerPresent = true ∧
      (pass resync s'.record).Ensures (answers fun _ => True) s' fun w s'' result =>
        result = .ok ⟨.noAction, some resync⟩ ∧ s''.connectors = s'.connectors ∧
          ∀ x ∈ w, ∀ q, x.1.overWire.MayAsk (.cluster q) → q.method = .get := by
  have hruntimes : ∃ runtime : Except ClusterError RuntimeStatus, True :=
    ⟨.error (.decode ""), trivial⟩
  refine (ensures_pass h hruntimes resync).mono ?_
  rintro w s' result ⟨action, rfl, hpassed⟩
  have hsettled := hpassed.settled h
  obtain ⟨l, st, hrevised, -⟩ := hpassed.revised
  refine ⟨?_, hpassed.connectors, hrevised.spec, hsettled.present, ?_⟩
  · rw [hpassed.action_eq]
  · refine (hsettled.ensures_pass hruntimes resync).mono ?_
    rintro w s'' result ⟨rfl, hconnectors, hkept⟩
    exact ⟨rfl, hconnectors, fun x hx q hq => Neighbour.get_of_mayAsk (hkept x hx) hq⟩

/-- A connector with another configuration is there already. -/
theorem orders_converges :
    let wanted : Config := .ofList [("name", "orders"), ("tasks.max", "1")]
    let place := ("http://dbz:8083", "orders")
    let s : World := ⟨.orders, Function.update (fun _ => none) place
      (some (.ofList [("name", "orders"), ("tasks.max", "2")]))⟩
    s.Manageable "orders" ∧ s.due "orders" = .update ∧
      (pass (.ofSeconds 60) s.record).Ensures (answers fun _ => True) s fun _ s' result =>
        result = .ok ⟨.update, some (.ofSeconds 60)⟩ ∧
          s'.connectors = Function.update s.connectors place (some wanted) ∧
          s'.record.finalizerPresent = true := by
  intro wanted place s
  have hmanageable : s.Manageable "orders" := orders_manageable _
  have hdue : s.due "orders" = .update := by decide +kernel
  refine ⟨hmanageable, hdue, (pass_converges hmanageable _).mono ?_⟩
  rintro w s' result ⟨hresult, hconnectors, -, hpresent, -⟩
  exact ⟨hdue ▸ hresult, hconnectors, hpresent⟩

end World

end ConnectorKeeper
