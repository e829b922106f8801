import ConnectorKeeper.Proofs.ClusterRequests
import ConnectorKeeper.Proofs.Configurations
import ConnectorKeeper.Proofs.Encodings
import ConnectorKeeper.Proofs.FailsClosed
import ConnectorKeeper.Proofs.PassQuestions
import ConnectorKeeper.Proofs.RequestProtocol
import ConnectorKeeper.Proofs.WrittenRecords

/-!
# Configurations that come back

A configuration is compared text by text, so it must survive the way to a cluster and
back: what a request says has to be read as the configuration that was sent, whatever
characters it holds (`Json.Conveys`).

*Documents.*  The bytes of a configuration's document are read as the configuration, and
the request that creates a connector holds these bytes.

*Passes.*  A pass that reads the configuration of its record changes no cluster
(`Record.inSync_of_trace`).

Together they say that a cluster which returns what it was given is left alone
(`returned_config_in_sync`).
-/

namespace ConnectorKeeper

open Json (Legible)
open Program (Exchange onlyAsks_ask onlyAsks_bind onlyAsks_done)
open Text (ByteText)

/-! ## Documents -/

namespace Text

theorem utf8_append (s t : String) : utf8 (s ++ t) = utf8 s ++ utf8 t := by
  simp only [utf8, String.toList_append, List.flatMap_append]

end Text

namespace Json

/-- The bytes of a value's text. -/
def bytes (v : Json) : List UInt8 := Text.utf8 v.print

/-- The bytes of a value are read as the value. -/
theorem ofText_bytes {v : Json} (h : Legible v) (hkept : v.reread = v) :
    Document.ofText (ByteText.ofBytes v.bytes) = ⟨v, true⟩ := by
  rw [bytes, ByteText.ofBytes_utf8, Document.ofText_print h, hkept]

theorem parse?_bytes {v : Json} (h : Legible v) (hkept : v.reread = v) :
    parse? (ByteText.ofBytes v.bytes) = some v := by
  rw [parse?, ofText_bytes h hkept]
  rfl

end Json

theorem legible_configJson (c : Config) : Legible (configJson c) := Metadata.legible_textMapJson c

theorem reread_configJson (c : Config) : (configJson c).reread = configJson c :=
  Metadata.reread_textMapJson c

theorem legible_namedConfig (c : Config) : Legible (Connect.namedConfig c) := by
  refine Json.legible_record ?_
  simp only [List.forall_mem_cons]
  exact ⟨.text _, legible_configJson c, List.forall_mem_nil _⟩

theorem reread_namedConfig (c : Config) :
    (Connect.namedConfig c).reread = Connect.namedConfig c := by
  simp only [Connect.namedConfig, Json.reread_record, List.map_cons, List.map_nil, Json.reread_text,
    reread_configJson]

/-- The bytes of the request that creates a connector hold those of its configuration. -/
theorem bytes_namedConfig (c : Config) : (Connect.namedConfig c).bytes =
    Text.utf8 "\x7b\"name\":" ++ (Json.text ((c.get? nameKey).getD "")).bytes ++
      Text.utf8 ",\"config\":" ++ (configJson c).bytes ++ Text.utf8 "\x7d" := by
  simp only [Json.bytes, ← Text.utf8_append]
  refine congrArg Text.utf8 (String.toList_inj.1 ?_)
  simp [Json.print, Connect.namedConfig, Json.record, Json.chars, Json.membersChars, Json.text,
    Json.literalChars, Json.escape]

/-- A response that gives a document back byte for byte. -/
def Http.Response.returning (doc : Json) : Http.Response :=
  ⟨200, some (ByteText.ofBytes doc.bytes)⟩

theorem Http.Response.holds_returning (c : Config) : (returning (configJson c)).Holds c := by
  refine ⟨rfl, ?_⟩
  have hread : configDecoder Json.depthLimit (configJson c) = .value c :=
    configDecoder_configJson 126 c
  simp only [returning, Option.bind_some, Json.decodeText?,
    Json.ofText_bytes (legible_configJson c) (reread_configJson c), Json.Document.decode, hread]
  rfl

/-! ## Reading a configuration -/

/-- The response to the one request is what is read. -/
theorem Connect.result_of_trace_readConfig {host name : String} {c : Config}
    {w : List (Exchange Wire.Reply)} {q : Http.Request} {response : Http.Response}
    {result : Except ClusterError Config} (h : (readConfig host name).Trace w result)
    (hmem : Wire.ofCluster q (some response) ∈ w) (hholds : response.Holds c) : result = .ok c :=
  (result_of_trace_exchange h hmem).trans (acceptBody_eq_ok_iff.2 hholds)

/-- Where a cluster returns the document, the configuration is read. -/
structure Json.Conveys (doc : Json) (c : Config) : Prop where
  /-- It is read wherever a configuration can be asked for. -/
  exists_trace : ∀ host name, Connect.Reaches host ["connectors", name, "config"] →
    ∃ q, (Connect.readConfig host name).Trace
      [Wire.ofCluster q (some (.returning doc))] (.ok c)
  /-- Nothing else is read. -/
  only : ∀ host name w q result, (Connect.readConfig host name).Trace w result →
    Wire.ofCluster q (some (.returning doc)) ∈ w → result = .ok c

theorem conveys_configJson (c : Config) : (configJson c).Conveys c := by
  have hholds := Http.Response.holds_returning c
  constructor
  · intro host name hreaches
    have hread : Connect.acceptBody "get_config" configDecoder (.returning (configJson c)) = .ok c :=
      Connect.acceptBody_eq_ok_iff.2 hholds
    rw [← hread]
    exact hreaches.exists_trace _
  · intro host name w q result h hmem
    exact Connect.result_of_trace_readConfig h hmem hholds

/-! ## A pass that reads its configuration -/

/-- Whether a question is after the configuration of a connector. -/
def Neighbour.readsConfig : Neighbour → Bool
  | .readConfig .. => true
  | _ => false

section Pass

variable {r : Record} {name : String} {resync : Duration} {c : Config}
  {v : List (Exchange Neighbour.Reply)} {w : List (Exchange Wire.Reply)}
  {result : Except PassError Outcome}

theorem ensure_reads_nothing (r : Record) :
    (Finalizer.ensure r).OnlyAsks fun n => n.readsConfig = false ∧ n.changesConnector = false := by
  unfold Finalizer.ensure
  split
  · exact onlyAsks_done _
  · refine onlyAsks_ask ⟨rfl, rfl⟩ fun added => ?_
    rcases added with _ | _ <;> exact onlyAsks_done _

theorem finish_reads_nothing (resync : Duration) (r : Record) (action : Action) (phase : Phase)
    (reason message : String) : (finish resync r action phase reason message).OnlyAsks fun n =>
      n.readsConfig = false ∧ n.changesConnector = false := by
  refine onlyAsks_bind (onlyAsks_ask ⟨rfl, rfl⟩ fun now => ?_) fun _ => onlyAsks_done _
  dsimp only
  split
  · exact onlyAsks_done _
  · refine onlyAsks_ask ⟨rfl, rfl⟩ fun written => ?_
    rcases written with _ | _ <;> exact onlyAsks_done _

theorem converge_reads_nothing (resync : Duration) (r : Record) (name : String)
    (seen : Observation) : (converge resync r name seen).OnlyAsks (·.readsConfig = false) := by
  have hfinish (action phase reason message) :
      (finish resync r action phase reason message).OnlyAsks (·.readsConfig = false) :=
    fun n hn => (finish_reads_nothing resync r action phase reason message n hn).1
  unfold converge
  split
  · refine onlyAsks_ask rfl fun created => ?_
    rcases created with _ | _
    · exact onlyAsks_done _
    · exact hfinish _ _ _ _
  · refine onlyAsks_ask rfl fun updated => ?_
    rcases updated with _ | _
    · exact onlyAsks_done _
    · exact hfinish _ _ _ _
  · exact hfinish _ _ _ _

theorem observe_changes_nothing (host name : String) :
    (observe host name).OnlyAsks (·.changesConnector = false) := by
  refine onlyAsks_ask rfl fun found => ?_
  rcases found with _ | _ | _
  · exact onlyAsks_done _
  · refine onlyAsks_ask rfl fun config => ?_
    rcases config with _ | _
    · exact onlyAsks_done _
    · exact onlyAsks_ask rfl fun _ => onlyAsks_done _
  · exact onlyAsks_done _

/-- A configuration that is read is the one observed. -/
theorem seen_of_trace_observe {host host' name' : String} {seen : Except PassError Observation}
    (h : (observe host name).Trace v seen)
    (hread : (⟨.readConfig host' name', .ok c⟩ : Exchange Neighbour.Reply) ∈ v) :
    ∃ runtime, seen = .ok ⟨true, some c, runtime⟩ := by
  obtain ⟨found, v, rfl, hfound⟩ := Program.trace_ask_iff.1 h
  replace hread := (List.mem_cons.1 hread).resolve_left nofun
  rcases found with e | _ | _
  · obtain ⟨rfl, -⟩ := Program.trace_done_iff.1 hfound
    cases hread
  · obtain ⟨config, v, rfl, hconfig⟩ := Program.trace_ask_iff.1 hfound
    rcases config with e | config
    · obtain ⟨rfl, -⟩ := Program.trace_done_iff.1 hconfig
      cases List.mem_singleton.1 hread
    · obtain ⟨runtime, v, rfl, hruntime⟩ := Program.trace_ask_iff.1 hconfig
      obtain ⟨rfl, rfl⟩ := Program.trace_done_iff.1 hruntime
      obtain heq | hread := List.mem_cons.1 hread
      · cases heq
        exact ⟨_, rfl⟩
      · cases List.mem_singleton.1 hread
  · obtain ⟨rfl, -⟩ := Program.trace_done_iff.1 hfound
    cases hread

theorem result_of_trace_finish {action : Action} {phase : Phase} {reason message : String}
    (h : (finish resync r action phase reason message).Trace v result) :
    result = .ok ⟨action, some resync⟩ := by
  obtain ⟨-, v₁, v₂, -, hend, -⟩ := Program.trace_bind_iff.1 h
  exact (Program.trace_done_iff.1 hend).2

/-- A pass over a live record that reads its own configuration finds nothing to do. -/
theorem noAction_of_trace_sync {host' name' : String} (h : (sync resync r).Trace v result)
    (hread : (⟨.readConfig host' name', .ok r.spec.config⟩ : Exchange Neighbour.Reply) ∈ v) :
    result = .ok ⟨.noAction, some resync⟩ ∧ ∀ x ∈ v, x.1.changesConnector = false := by
  unfold sync at h
  split at h
  · obtain ⟨rfl, -⟩ := Program.trace_done_iff.1 h
    cases hread
  · next name hname =>
    obtain ⟨seen, v₁, v₂, hobserve, hconverge, rfl⟩ := Program.trace_bind_iff.1 h
    -- the configuration is read while observing, or not at all
    have hfirst :
        (⟨.readConfig host' name', .ok r.spec.config⟩ : Exchange Neighbour.Reply) ∈ v₁ := by
      refine (List.mem_append.1 hread).resolve_right fun hlast => ?_
      cases seen with
      | error e =>
        obtain ⟨rfl, -⟩ := Program.trace_done_iff.1 hconverge
        cases hlast
      | ok seen =>
        have hquiet := converge_reads_nothing resync r name seen _
          (Program.mayAsk_of_trace hconverge hlast)
        cases hquiet
    obtain ⟨runtime, rfl⟩ := seen_of_trace_observe hobserve hfirst
    have hfinish := hconverge
    simp only [converge, Action.choose_present, if_true] at hfinish
    refine ⟨result_of_trace_finish hfinish, ?_⟩
    intro x hx
    obtain hx | hx := List.mem_append.1 hx
    · exact observe_changes_nothing _ _ _ (Program.mayAsk_of_trace hobserve hx)
    · exact (finish_reads_nothing _ _ _ _ _ _ _ (Program.mayAsk_of_trace hfinish hx)).2

theorem noAction_of_trace {host' name' : String} (h : (pass resync r).Trace v result)
    (hread : (⟨.readConfig host' name', .ok r.spec.config⟩ : Exchange Neighbour.Reply) ∈ v) :
    result = .ok ⟨.noAction, some resync⟩ ∧ ∀ x ∈ v, x.1.changesConnector = false := by
  obtain ⟨-, -, hlive⟩ := pass_concerns resync r _ (Program.mayAsk_of_trace h hread)
  unfold pass Record.lifecycle at h
  rw [hlive, if_neg Bool.false_ne_true] at h
  cases hpresent : r.finalizerPresent with
  | true =>
    rw [hpresent] at h
    exact noAction_of_trace_sync h hread
  | false =>
    rw [hpresent] at h
    simp only [Bool.false_eq_true, if_false, adopt] at h
    split at h
    · obtain ⟨rfl, -⟩ := Program.trace_done_iff.1 h
      cases hread
    · obtain ⟨added, v₁, v₂, hensure, hsync, rfl⟩ := Program.trace_bind_iff.1 h
      have hquiet (x) (hx : x ∈ v₁) := ensure_reads_nothing r _ (Program.mayAsk_of_trace hensure hx)
      obtain hfirst | hread := List.mem_append.1 hread
      · cases (hquiet _ hfirst).1
      · cases added with
        | error e =>
          obtain ⟨rfl, -⟩ := Program.trace_done_iff.1 hsync
          cases hread
        | ok _ =>
          obtain ⟨hresult, hkept⟩ := noAction_of_trace_sync hsync hread
          refine ⟨hresult, ?_⟩
          intro x hx
          obtain hx | hx := List.mem_append.1 hx
          · exact (hquiet x hx).2
          · exact hkept x hx

/-! ### On the wire -/

/-- A word below a connector is not the address of the connector. -/
theorem Url.below_word_ne (base : Url) (name : String) {word : String} (h : Fixed word)
    (hword : word ≠ "") : (base.below ["connectors", name, word]).path ≠
      (base.below ["connectors", name]).path := by
  rw [below_word base name h, openEnd]
  split
  · next hroot =>
    rw [hroot]
    simpa using hword
  · intro heq
    simpa using congrArg List.length heq

/-- Of the questions of a pass only the one about the configuration makes its request. -/
theorem Neighbour.Concerns.eq_readConfig {n : Neighbour} {q : Http.Request} (h : n.Concerns r)
    (hname : r.connectorName = some name) (hn : n.overWire.MayAsk (.cluster q))
    (hq : (Neighbour.readConfig r.spec.host name).overWire.MayAsk (.cluster q)) :
    n = .readConfig r.spec.host name := by
  have hmethod : q.method = .get := Connect.method_of_mayAsk_exchange hq
  cases hbase : Url.parse? r.spec.host with
  | none =>
    simp only [Neighbour.overWire, Connect.readConfig, Connect.exchange, Connect.endpoint, hbase]
      at hq
    exact absurd hq (Program.not_mayAsk_done _ _)
  | some base =>
    have hurl := Connect.url_of_mayAsk hbase rfl hq
    -- two questions have the method in common, but not the last word of the address
    cases n with
    | lookup _ _ =>
      obtain ⟨rfl, hname', -⟩ := h
      obtain rfl := Option.some.inj (hname.symm.trans hname')
      have hurl' := Connect.url_of_mayAsk hbase rfl hn
      have hpath := congrArg Url.path (hurl.symm.trans hurl')
      exact absurd hpath (base.below_word_ne name Url.fixed_config (by decide))
    | readStatus _ _ =>
      obtain ⟨rfl, hname', -⟩ := h
      obtain rfl := Option.some.inj (hname.symm.trans hname')
      have hurl' := Connect.url_of_mayAsk hbase rfl hn
      have hpath := congrArg Url.path (hurl.symm.trans hurl')
      dsimp only at hpath
      rw [base.below_word name Url.fixed_config, base.below_word name Url.fixed_status,
        List.append_cancel_left_eq] at hpath
      exact absurd hpath (by decide)
    | readConfig _ _ =>
      obtain ⟨rfl, hname', -⟩ := h
      rw [Option.some.inj (hname.symm.trans hname')]
    | create _ _ | update _ _ _ | delete _ _ =>
      cases hmethod.symm.trans (Connect.method_of_mayAsk_exchange hn)
    | addFinalizer r => exact absurd (addFinalizer_asks_api r _ hn) (by simp)
    | removeFinalizer r => exact absurd (removeFinalizer_asks_api r _ hn) (by simp)
    | patchStatus r status => exact absurd (patch_asks_api r _ _ _ hn) (by simp)
    | clock =>
      have hclock : (Program.question Wire.clock).MayAsk (.cluster q) := hn
      simp [Program.question] at hclock

/-- A pass that is answered the configuration of its record changes no cluster. -/
theorem Record.inSync_of_trace (h : (pass resync r).overWire.Trace w result)
    (hname : r.connectorName = some name) {x : Exchange Wire.Reply} (hx : x ∈ w)
    (hread : Answered (.readConfig r.spec.host name) (·.Holds r.spec.config) x) :
    result = .ok ⟨.noAction, some resync⟩ ∧ ∀ y ∈ w, y.1.changesCluster = false := by
  obtain ⟨v, hv, hcarries⟩ := Program.trace_run_iff.1 h
  obtain ⟨⟨n, reply⟩, hmem, u, hu, hxu⟩ := Program.exists_mem_of_carries hcarries hx
  obtain ⟨q, response, rfl, hq, hholds⟩ := hread
  have hconcerns := pass_concerns resync r n (Program.mayAsk_of_trace hv hmem)
  obtain rfl := hconcerns.eq_readConfig hname (Program.mayAsk_of_trace hu hxu) hq
  have hreply : reply = .ok r.spec.config := Connect.result_of_trace_readConfig hu hxu hholds
  subst hreply
  obtain ⟨hresult, hkept⟩ := noAction_of_trace hv hmem
  refine ⟨hresult, ?_⟩
  intro y hy
  obtain ⟨⟨n, reply⟩, hmem, u, hu, hyu⟩ := Program.exists_mem_of_carries hcarries hy
  have hask := Program.mayAsk_of_trace hu hyu
  obtain ⟨question, answer⟩ := y
  cases question with
  | cluster q => simp [Wire.changesCluster, Neighbour.get_of_mayAsk (hkept _ hmem) hask]
  | api q => rfl
  | clock => rfl

end Pass

/-! ## What was given comes back -/

/-- The document that a request gives to a cluster as the configuration of a connector. -/
def Http.Request.document? (q : Http.Request) : Option Json :=
  match q.method with
  | .put => q.body
  | .post => q.body.bind (Json.member? "config")
  | _ => none

/-- A cluster was given a document. -/
def Gave (w : List (Exchange Wire.Reply)) (doc : Json) : Prop :=
  ∃ q reply, Wire.ofCluster q reply ∈ w ∧ q.document? = some doc

/-- The configuration of the record's connector was asked for, and a document came back. -/
def Record.Got (r : Record) (w : List (Exchange Wire.Reply)) (doc : Json) : Prop :=
  ∃ name, r.connectorName = some name ∧
    ∃ x ∈ w, Answered (.readConfig r.spec.host name) (· = .returning doc) x

/-- A pass gives away no document but that of its record. -/
theorem Gave.eq_of_trace {r : Record} {resync : Duration} {w : List (Exchange Wire.Reply)}
    {result : Except PassError Outcome} {doc : Json} (hgave : Gave w doc)
    (h : (pass resync r).overWire.Trace w result) : doc = configJson r.spec.config := by
  obtain ⟨q, reply, hq, hdoc⟩ := hgave
  have hprotocol := Record.protocol_of_trace h
  obtain ⟨before, after, hsplit⟩ := List.append_of_mem hq
  unfold Http.Request.document? at hdoc
  split at hdoc
  · next hput =>
    rw [(hprotocol.put before q reply after hsplit hput).1] at hdoc
    exact (Option.some.inj hdoc).symm
  · next hpost =>
    rw [(hprotocol.post before q reply after hsplit hpost).1] at hdoc
    exact (Option.some.inj hdoc).symm
  · cases hdoc

/-- Every configuration survives the way to a cluster and back.  The document of an update is
read as the configuration, and so is the one within the request that creates a connector, which
also gives its name.  A pass that reads a document which was given for its spec, byte for
byte, finds nothing to do. -/
theorem returned_config_in_sync (c : Config) :
    (∀ host name q, (Connect.update host name c).MayAsk (.cluster q) →
      ∃ doc, q.body = some doc ∧ doc.Conveys c) ∧
    (∀ host q, (Connect.create host c).MayAsk (.cluster q) → ∃ body named doc,
      q.body = some body ∧ body.bytes = Text.utf8 "\x7b\"name\":" ++ named.bytes ++
        Text.utf8 ",\"config\":" ++ doc.bytes ++ Text.utf8 "\x7d" ∧
      Json.parse? (ByteText.ofBytes body.bytes) = some body ∧
      body.member? "name" = some named ∧ named = .text ((c.get? nameKey).getD "") ∧
      body.member? "config" = some doc ∧ doc.Conveys c) ∧
    ∀ (r r' : Record) (resync resync' : Duration) (w w' : List (Exchange Wire.Reply))
      (result result' : Except PassError Outcome) (doc : Json),
      r.spec.config = c → (pass resync r).overWire.Trace w result → Gave w doc →
      r'.spec = r.spec → (pass resync' r').overWire.Trace w' result' → r'.Got w' doc →
      result' = .ok ⟨.noAction, some resync'⟩ ∧ ∀ x ∈ w', x.1.changesCluster = false := by
  refine ⟨?_, ?_, ?_⟩
  · intro host name q hq
    exact ⟨_, (Connect.eq_of_mayAsk_exchange hq).2, conveys_configJson c⟩
  · intro host q hq
    exact ⟨_, _, _, (Connect.eq_of_mayAsk_exchange hq).2, bytes_namedConfig c,
      Json.parse?_bytes (legible_namedConfig c) (reread_namedConfig c), rfl, rfl, rfl,
      conveys_configJson c⟩
  · intro r r' resync resync' w w' result result' doc hconfig h hgave hspec h' hgot
    obtain ⟨name, hname, x, hx, q, response, rfl, hq, rfl⟩ := hgot
    obtain rfl := hgave.eq_of_trace h
    refine Record.inSync_of_trace h' hname hx ⟨q, _, rfl, hq, ?_⟩
    rw [hspec]
    exact Http.Response.holds_returning _

/-- A cluster in which every connector has a document as its configuration, and an API server
that is out of reach. -/
def returnAlways (doc : Json) : (q : Wire) → q.Reply
  | .cluster q =>
      some (if q.url.path.getLast? = some "config" then .returning doc else ⟨200, none⟩)
  | .api _ => .dropped ""
  | .clock => ⟨0, 0⟩

/-- Texts that must be escaped or take more than one code unit, and empty ones. -/
def Config.escaped : Config := .ofList [("name", "orders"), ("", ""), ("\"😀\\", "\x01\n\u00e9")]

/-- A record with these texts, which has the finalizer. -/
def Record.escaped : Record :=
  ⟨{ Metadata.empty with finalizers := some [finalizer] }, ⟨"http://dbz:8083", .escaped⟩, none⟩

/-- A request to the cluster of that record. -/
def Http.Request.toDbz (method : Method) (path : List String) (body : Option Json) : Request :=
  ⟨method, ⟨"http", "", none, some "dbz", some 8083, path, none, none⟩, body, none⟩

/-- The connector of that record is created by one pass, and left alone by the next. -/
theorem returned_config_in_sync_escaped :
    ∃ (put post : Http.Request) (w w' : List (Exchange Wire.Reply))
      (result result' : Except PassError Outcome),
      ((Connect.update "http://dbz:8083" "orders" .escaped).MayAsk (.cluster put) ∧
        ∃ doc, put.body = some doc ∧ doc.Conveys .escaped) ∧
      ((Connect.create "http://dbz:8083" .escaped).MayAsk (.cluster post) ∧
        ∃ body doc, post.body = some body ∧ body.member? "name" = some (.text "orders") ∧
          body.member? "config" = some doc ∧ doc.Conveys .escaped) ∧
      (pass (.ofSeconds 60) .escaped).overWire.Trace w result ∧ Gave w (configJson .escaped) ∧
      (pass (.ofSeconds 60) .escaped).overWire.Trace w' result' ∧
      Record.escaped.Got w' (configJson .escaped) ∧
      result' = .ok ⟨.noAction, some (.ofSeconds 60)⟩ ∧ ∀ x ∈ w', x.1.changesCluster = false := by
  have hbase : Url.parse? "http://dbz:8083" =
      some ⟨"http", "", none, some "dbz", some 8083, [""], none, none⟩ := by
    cbv
  have hput : (Connect.update "http://dbz:8083" "orders" .escaped).MayAsk (.cluster
      (.toDbz .put ["connectors", "orders", "config"] (some (configJson .escaped)))) :=
    (Connect.mayAsk_exchange_iff hbase).2 ⟨by decide +kernel, by cbv⟩
  have hpost : (Connect.create "http://dbz:8083" .escaped).MayAsk (.cluster
      (.toDbz .post ["connectors"] (some (Connect.namedConfig .escaped)))) :=
    (Connect.mayAsk_exchange_iff hbase).2 ⟨by decide +kernel, by cbv⟩
  have hget : (Connect.readConfig "http://dbz:8083" "orders").MayAsk (.cluster
      (.toDbz .get ["connectors", "orders", "config"] none)) :=
    (Connect.mayAsk_exchange_iff hbase).2 ⟨by decide +kernel, by cbv⟩
  -- in both passes the second exchange is the one that matters
  have hgiven : ((pass (.ofSeconds 60) .escaped).overWire.transcript Record.acceptAll).1[1]? =
      some (Wire.ofCluster (.toDbz .post ["connectors"] (some (Connect.namedConfig .escaped)))
        (some ⟨201, some (.ofString "")⟩)) := by
    cbv
  have hreturned : ((pass (.ofSeconds 60) .escaped).overWire.transcript
      (returnAlways (configJson .escaped))).1[1]? =
      some (Wire.ofCluster (.toDbz .get ["connectors", "orders", "config"] none)
        (some (.returning (configJson .escaped)))) := by
    cbv
  have htrace := Program.trace_transcript Record.acceptAll (pass (.ofSeconds 60) .escaped).overWire
  have htrace' := Program.trace_transcript (returnAlways (configJson .escaped))
    (pass (.ofSeconds 60) .escaped).overWire
  have hgave : Gave _ (configJson .escaped) := ⟨_, _, List.mem_of_getElem? hgiven, rfl⟩
  have hgot : Record.escaped.Got _ (configJson .escaped) :=
    ⟨"orders", by cbv, _, List.mem_of_getElem? hreturned, _, _, rfl, hget, rfl⟩
  obtain ⟨hupdate, hcreate, hpass⟩ := returned_config_in_sync .escaped
  obtain ⟨body, named, doc, hbody, -, -, hnamed, rfl, hdoc, hconveys⟩ := hcreate _ _ hpost
  exact ⟨_, _, _, _, _, _, ⟨hput, hupdate _ _ _ hput⟩,
    ⟨hpost, body, doc, hbody, hnamed, hdoc, hconveys⟩, htrace, hgave, htrace', hgot,
    hpass .escaped .escaped _ _ _ _ _ _ _ rfl htrace hgave rfl htrace' hgot⟩

end ConnectorKeeper
