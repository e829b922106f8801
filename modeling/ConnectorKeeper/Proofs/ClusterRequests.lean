import ConnectorKeeper.Proofs.PassHistories

/-!
# Requests to a cluster

A question about a connector takes one request or none, and which of the two is a
matter of its address alone (`Connect.Reaches`).  Who has read the configuration of a
connector can also ask what it is doing: the two addresses differ in their last
word, and the words are of one length.

Only a question that changes a connector makes a request that changes a cluster.
-/

namespace ConnectorKeeper

/-! ## Addresses that differ in one word -/

namespace Url

/-- URLs with paths of one length are of one length, if both or neither of the paths are
set apart from the scheme. -/
theorem utf8ByteSize_text_eq (u : Url) {path path' : List String}
    (hsize : (segmentsText path).utf8ByteSize = (segmentsText path').utf8ByteSize)
    (hapart : (segmentsText path).startsWith "//" = (segmentsText path').startsWith "//") :
    { u with path }.text.utf8ByteSize = { u with path := path' }.text.utf8ByteSize := by
  simp only [text, textBeforeFragment, pathText_eq, userinfoText, hostText,
    String.utf8ByteSize_append, hsize, hapart]
  rfl

theorem segmentsText_concat (front : List String) (s : String) :
    segmentsText (front ++ [s]) = segmentsText front ++ "/" ++ s := by
  apply String.toList_inj.1
  simp [segmentsText]

/-- A path begins alike with either word at its end. -/
theorem startsWith_concat (front : List String) {s s' : String}
    (h : ("/" ++ s).startsWith "//" = ("/" ++ s').startsWith "//") :
    (segmentsText (front ++ [s])).startsWith "//" =
      (segmentsText (front ++ [s'])).startsWith "//" := by
  rw [segmentsText_concat, segmentsText_concat]
  cases front with
  | nil => exact h
  | cons x front =>
    have hlong : 2 ≤ (segmentsText (x :: front) ++ "/").toList.length := by
      simp [segmentsText]
      omega
    rw [startsWith_append hlong, startsWith_append hlong]

/-- A word below a connector is a segment of its own. -/
theorem below_word (base : Url) (name : String) {word : String} (h : Fixed word) :
    (base.below ["connectors", name, word]).path =
      openEnd (base.below ["connectors", name]).path ++ [word] := by
  simp only [below_connectors, List.foldl_cons, List.foldl_nil, push_plain h.1, h.2]

end Url

/-! ## Requests of an exchange -/

namespace Connect

/-- A request to a resource of the cluster at `host` can be sent. -/
def Reaches (host : String) (segments : List String) : Prop :=
  ∃ url, endpoint host segments = .ok url ∧ sendable (splitCredentials url).2 = true

section Exchange

variable {α : Type} {host : String} {segments : List String} {method : Http.Method}
  {body : Option Json} {judge : Http.Response → Except ClusterError α}
  {v : List (Program.Exchange Wire.Reply)}

theorem reaches_of_trace {a : α} (h : (exchange host segments method body judge).Trace v (.ok a)) :
    Reaches host segments := by
  unfold exchange at h
  split at h
  · obtain ⟨-, ⟨⟩⟩ := Program.trace_done_iff.1 h
  · next url hurl =>
    by_cases hsend : sendable (splitCredentials url).2 = true
    · exact ⟨url, hurl, hsend⟩
    · simp only [send, if_neg hsend] at h
      obtain ⟨-, ⟨⟩⟩ := Program.trace_done_iff.1 h

/-- Whatever comes of it, there is one request if there can be one. -/
theorem Reaches.one_request {result : Except ClusterError α} (h : Reaches host segments)
    (htrace : (exchange host segments method body judge).Trace v result) :
    ∃ q, v.map (·.1) = [.cluster q] ∧ q.method = method := by
  obtain ⟨url, hurl, hsend⟩ := h
  simp only [exchange, hurl, send, if_pos hsend, Program.ask_bind] at htrace
  obtain ⟨reply, w, rfl, hend⟩ := Program.trace_ask_iff.1 htrace
  cases reply with
  | none =>
    obtain ⟨rfl, -⟩ := Program.trace_done_iff.1 hend
    exact ⟨_, rfl, rfl⟩
  | some response =>
    obtain ⟨rfl, -⟩ := Program.trace_done_iff.1 hend
    exact ⟨_, rfl, rfl⟩

/-- Any response can come, and what it is judged to be is the result. -/
theorem Reaches.exists_trace (h : Reaches host segments) (response : Http.Response) :
    ∃ q, (exchange host segments method body judge).Trace [Wire.ofCluster q (some response)]
      (judge response) := by
  obtain ⟨url, hurl, hsend⟩ := h
  simp only [exchange, hurl, send, if_pos hsend, Program.ask_bind]
  exact ⟨_, Program.trace_ask_iff.2 ⟨some response, [], rfl, .done _⟩⟩

end Exchange

/-- Where the configuration of a connector can be read, its runtime status can be asked for. -/
theorem Reaches.status {host name : String} (h : Reaches host ["connectors", name, "config"]) :
    Reaches host ["connectors", name, "status"] := by
  obtain ⟨url, hurl, hsend⟩ := h
  cases hbase : Url.parse? host with
  | none =>
    rw [endpoint, hbase] at hurl
    cases hurl
  | some base =>
    rw [endpoint_eq hbase] at hurl
    obtain rfl := Except.ok.inj hurl
    refine ⟨_, endpoint_eq hbase _, ?_⟩
    have hconfig := base.below_word name Url.fixed_config
    have hstatus := base.below_word name Url.fixed_status
    generalize Url.openEnd (base.below ["connectors", name]).path = front at hconfig hstatus
    have hsize : (Url.segmentsText (front ++ ["status"])).utf8ByteSize =
        (Url.segmentsText (front ++ ["config"])).utf8ByteSize := by
      simp only [Url.segmentsText_concat, String.utf8ByteSize_append]
      rfl
    have htext := Url.utf8ByteSize_text_eq (splitCredentials base).2 hsize
      (Url.startsWith_concat front (by decide +kernel))
    rw [splitCredentials_below, hstatus]
    rw [splitCredentials_below, hconfig] at hsend
    simp only [sendable, htext] at hsend ⊢
    exact hsend

end Connect

/-! ## Questions -/

/-- Whether a question is to change a connector. -/
def Neighbour.changesConnector : Neighbour → Bool
  | .create .. | .update .. | .delete .. => true
  | _ => false

/-- What leaves the connectors as they are asks the clusters with GET only. -/
theorem Neighbour.get_of_mayAsk {n : Neighbour} (h : n.changesConnector = false)
    {q : Http.Request} (hq : n.overWire.MayAsk (.cluster q)) : q.method = .get := by
  cases n with
  | create | update | delete => cases h
  | lookup | readConfig | readStatus => exact Connect.method_of_mayAsk_exchange hq
  | addFinalizer r => exact absurd (addFinalizer_asks_api r _ hq) (by simp)
  | removeFinalizer r => exact absurd (removeFinalizer_asks_api r _ hq) (by simp)
  | patchStatus r status => exact absurd (patch_asks_api r _ _ _ hq) (by simp)
  | clock =>
    have hclock : (Program.question Wire.clock).MayAsk (.cluster q) := hq
    simp [Program.question] at hclock

end ConnectorKeeper
