import ConnectorKeeper.Proofs.PassQuestions
import ConnectorKeeper.Proofs.Segments

/-!
# Which connector a request addresses

A request about a connector goes to the path of its name: the base path of the
host, then `connectors`, then one segment that stands for exactly the name, then
what the operation appends.  That is so exactly if the name is plain
(`request_names_connector_iff`).  Requests about different plain names on one
host differ in their address, and all that a pass sends to a cluster is about
the name in the configuration that it creates a connector with.

A name that is not plain is addressed under another name, as
`tab_shares_address` shows.
-/

namespace ConnectorKeeper

/-! ## Addresses as text -/

namespace Url

/-- A character that ends a segment within the text of a URL. -/
def endsSegment (c : Char) : Bool := c = '/' || c = '?'

/-- A text that ends the segment before it. -/
def Ends (s : List Char) : Prop := ∀ c ∈ s.head?, endsSegment c = true

theorem endsSegment_of_mem_segment {special : Bool} {name : String} {c : Char}
    (h : c ∈ (segment special name).toList) : endsSegment c = false := by
  rw [segment, String.toList_ofList] at h
  simp only [endsSegment, Bool.or_eq_false_iff, decide_eq_false_iff_not]
  constructor
  · rintro rfl
    exact Text.Percent.notMem_encode (segmentSet_slash special) (by decide) (by decide) _ h
  · rintro rfl
    exact Text.Percent.notMem_encode (segmentSet_question special) (by decide) (by decide) _ h

/-- A text can be told from what follows it, if that begins with a sign that the text lacks. -/
theorem takeWhile_append_of_stop {stop : Char → Bool} {s rest : List Char}
    (hs : ∀ c ∈ s, stop c = false) (hrest : ∀ c ∈ rest.head?, stop c = true) :
    (s ++ rest).takeWhile (!stop ·) = s := by
  rw [List.takeWhile_append_of_pos fun c hc => by rw [hs c hc]; rfl]
  cases rest with
  | nil => simp
  | cons c rest => simp [hrest c rfl]

/-- A segment can be told from what ends it. -/
theorem takeWhile_segment {special : Bool} {name : String} {rest : List Char} (h : Ends rest) :
    ((segment special name).toList ++ rest).takeWhile (!endsSegment ·) =
      (segment special name).toList :=
  takeWhile_append_of_stop (fun _ => endsSegment_of_mem_segment) h

/-- Segments as text. -/
def segmentsText (path : List String) : String := String.join (path.map ("/" ++ ·))

theorem pathText_eq (u : Url) : u.pathText = segmentsText u.path := rfl

theorem segmentsText_split (front : List String) (s : String) (words : List String) :
    segmentsText (front ++ s :: words) =
      segmentsText front ++ "/" ++ (s ++ segmentsText words) := by
  apply String.toList_inj.1
  simp [segmentsText]

theorem ends_segmentsText (words : List String) {q : List Char} (h : Ends q) :
    Ends ((segmentsText words).toList ++ q) := by
  cases words with
  | nil => simpa [segmentsText] using h
  | cons s words =>
    intro c hc
    simp [segmentsText] at hc
    subst hc
    rfl

theorem ends_query (q : Option String) : Ends ((q.map ("?" ++ ·)).getD "").toList := by
  cases q with
  | none => simp [Ends]
  | some q =>
    intro c hc
    simp at hc
    subst hc
    rfl

/-- Whether a path has to be set apart from the scheme shows in its first two characters. -/
theorem startsWith_append {s : String} (h : 2 ≤ s.toList.length) (t : String) :
    (s ++ t).startsWith "//" = s.startsWith "//" := by
  have hiff (u : String) : u.startsWith "//" = decide ("//".toList <+: u.toList) := by
    rw [Bool.eq_iff_iff, String.startsWith_string_iff, decide_eq_true_iff]
  rw [hiff, hiff, String.toList_append]
  refine decide_eq_decide.2 ⟨fun hp => ?_, fun hp => hp.trans (List.prefix_append ..)⟩
  exact List.prefix_of_prefix_length_le hp (List.prefix_append ..) (by simpa using h)

/-- The texts of two URLs below the same segments begin alike. -/
theorem exists_text_eq (o : Url) {front : List String} (hfront : front ≠ []) :
    ∃ lead : String, ∀ s words,
      { o with path := front ++ s :: words, fragment := none }.text =
        lead ++ (s ++ (segmentsText words ++ (o.query.map ("?" ++ ·)).getD "")) := by
  have hlong : 2 ≤ (segmentsText front ++ "/").toList.length := by
    obtain ⟨s, front, rfl⟩ := List.exists_cons_of_ne_nil hfront
    simp [segmentsText]
    omega
  refine ⟨{ o with path := front ++ [""], query := none, fragment := none }.text,
    fun s words => ?_⟩
  apply String.toList_inj.1
  simp only [text, textBeforeFragment, pathText_eq, segmentsText_split, startsWith_append hlong,
    userinfoText, hostText]
  simp [segmentsText]

/-- Below the same segments, a segment can be told from the text of the URL. -/
theorem segment_of_text_eq {o : Url} {special special' : Bool} {name name' : String}
    {front words words' : List String} (hfront : front ≠ [])
    (h : { o with path := front ++ segment special name :: words, fragment := none }.text =
      { o with path := front ++ segment special' name' :: words', fragment := none }.text) :
    segment special name = segment special' name' := by
  obtain ⟨lead, hlead⟩ := exists_text_eq o hfront
  rw [hlead, hlead] at h
  have hchars := congrArg String.toList h
  simp only [String.toList_append, List.append_cancel_left_eq] at hchars
  have htaken := congrArg (List.takeWhile (!endsSegment ·)) hchars
  rw [takeWhile_segment (ends_segmentsText words (ends_query o.query)),
    takeWhile_segment (ends_segmentsText words' (ends_query o.query))] at htaken
  exact String.toList_inj.1 htaken

/-! ## The path of a named connector -/

/-- A path that consists of the base path, then `connectors`, then one segment that
stands for exactly the name, then some words. -/
def Names (base : Url) (name : String) (words path : List String) : Prop :=
  ∃ s, path = base.stem ++ "connectors" :: s :: words ∧
    Text.Percent.decode s.toList = Text.utf8 name

/-- What lies below a base under `connectors`. -/
theorem below_connectors (base : Url) (segments : List String) :
    (base.below ("connectors" :: segments)).path =
      segments.foldl (push (isSpecial base.scheme)) (base.stem ++ ["connectors"]) := by
  rw [below, List.foldl_cons, push_plain fixed_connectors.1, fixed_connectors.2, stem]

/-- Exactly the plain names are named by their paths. -/
theorem names_below_iff {base : Url} {name : String} {words : List String}
    (hwords : ∀ w ∈ words, Fixed w) :
    base.Names name words (base.below ("connectors" :: name :: words)).path ↔ Plain name := by
  have hopen : openEnd (base.stem ++ ["connectors"]) = base.stem ++ ["connectors"] :=
    openEnd_append (.inr (by decide))
  rw [below_connectors, Names,
    ← @foldl_push_iff (isSpecial base.scheme) _ name words (by simp) hopen hwords]
  simp only [List.append_assoc, List.singleton_append]

/-- What may follow the name of a connector: nothing, or a word for a part of it. -/
theorem fixed_of_part {words : List String}
    (h : words = [] ∨ words = ["config"] ∨ words = ["status"]) : ∀ w ∈ words, Fixed w := by
  obtain rfl | rfl | rfl := h
  · simp
  · simpa using fixed_config
  · simpa using fixed_status

theorem below_of_plain {base : Url} {name : String} {words : List String}
    (hwords : ∀ w ∈ words, Fixed w) (hname : Plain name) :
    (base.below ("connectors" :: name :: words)).path =
      (base.stem ++ ["connectors"]) ++ segment (isSpecial base.scheme) name :: words := by
  have hnames : ∀ n ∈ name :: words, Plain n :=
    List.forall_mem_cons.2 ⟨hname, fun w hw => (hwords w hw).1⟩
  rw [path_below fixed_connectors (by decide) hnames, List.map_cons, map_segment_fixed hwords,
    List.append_assoc, List.singleton_append]

/-- Every name shares its paths with another, one that is not plain. -/
theorem exists_below_eq (name : String) :
    ∃ name', name' ≠ name ∧ ¬ Plain name' ∧ ∀ base words,
      below base ("connectors" :: name' :: words) = below base ("connectors" :: name :: words) := by
  by_cases hdot : name = "."
  · exact ⟨"..", by rw [hdot]; decide, fun h => h.2.1 rfl, fun _ _ => by rw [hdot]; rfl⟩
  by_cases hdots : name = ".."
  · exact ⟨".", by rw [hdots]; decide, fun h => h.1 rfl, fun _ _ => by rw [hdots]; rfl⟩
  -- one more tab is dropped as well
  have hne : name ++ "\t" ≠ name := fun heq => by
    have hlen := congrArg (List.length ∘ String.toList) heq
    simp at hlen
  have htab : ¬ Plain (name ++ "\t") := fun h =>
    absurd (h.2.2 '\t' (by simp)) (by decide)
  refine ⟨name ++ "\t", hne, htab, fun base words => ?_⟩
  have hpush (special : Bool) (path : List String) :
      push special path (name ++ "\t") = push special path name := by
    have hlast (s : String) (hs : '\t' ∉ s.toList) : name ++ "\t" ≠ s := by
      rintro rfl
      simp at hs
    rw [push_of_ne (hlast "." (by decide)) (hlast ".." (by decide)), push_of_ne hdot hdots]
    simp [isIgnored]
  simp only [below, List.foldl_cons, hpush]

end Url

/-! ## Requests -/

/-- The connector that a question is about, as the host and name it is found under,
and what is asked for below it. -/
def Neighbour.target? : Neighbour → Option (String × String × List String)
  | .lookup host name | .delete host name => some (host, name, [])
  | .readConfig host name | .update host name _ => some (host, name, ["config"])
  | .readStatus host name => some (host, name, ["status"])
  | _ => none

theorem Neighbour.fixed_of_target? {n : Neighbour} {host name : String} {words : List String}
    (h : n.target? = some (host, name, words)) : ∀ w ∈ words, Url.Fixed w := by
  have hwords : words = [] ∨ words = ["config"] ∨ words = ["status"] := by
    unfold target? at h
    split at h <;> simp_all
  exact Url.fixed_of_part hwords

namespace Connect

theorem endpoint_eq {host : String} {base : Url} (hbase : Url.parse? host = some base)
    (segments : List String) : endpoint host segments = .ok (base.below segments) := by
  simp only [endpoint, hbase]

/-- What the addresses of all requests below a base have in common. -/
def origin (base : Url) : Url := { (splitCredentials base).2 with fragment := none }

theorem splitCredentials_below (base : Url) (segments : List String) :
    (splitCredentials (base.below segments)).2 =
      { (splitCredentials base).2 with path := (base.below segments).path } := by
  simp only [splitCredentials, Url.below]
  cases decodedPart? base.username with
  | none => rfl
  | some user =>
    cases hempty : user = "" && (base.password.bind decodedPart?).isNone with
    | true => simp only [hempty, if_true]
    | false => simp only [hempty, Bool.false_eq_true, if_false]

theorem origin_below (base : Url) (segments : List String) :
    { (splitCredentials (base.below segments)).2 with fragment := none } =
      { origin base with path := (base.below segments).path } := by
  rw [splitCredentials_below, origin]

/-- What an exchange makes of an answer. -/
def concluded {α : Type} (judge : Http.Response → Except ClusterError α) (lost : ClusterError) :
    Option Http.Response → Except ClusterError α
  | some response => judge response
  | none => .error lost

/-- An exchange asks nothing if the host is no base URL. -/
theorem exchange_of_none {α : Type} {host : String} (h : Url.parse? host = none)
    (segments : List String) (method : Http.Method) (body : Option Json)
    (judge : Http.Response → Except ClusterError α) :
    exchange host segments method body judge = .done (.error (.invalidHost host)) := by
  simp only [exchange, endpoint, h]

/-- An exchange sends one request, if it can be sent. -/
theorem exchange_of_parse {α : Type} {host : String} {base : Url}
    (hbase : Url.parse? host = some base) (segments : List String) (method : Http.Method)
    (body : Option Json) (judge : Http.Response → Except ClusterError α) :
    exchange host segments method body judge =
      if sendable (splitCredentials (base.below segments)).2 then
        .ask (.cluster ⟨method, { origin base with path := (base.below segments).path }, body,
            (splitCredentials (base.below segments)).1⟩) fun response =>
          .done (concluded judge (.noResponse (splitCredentials (base.below segments)).2.text)
            response)
      else .done (.error (.unsendable (splitCredentials (base.below segments)).2.text)) := by
  rw [← origin_below]
  simp only [exchange, endpoint_eq hbase, send]
  split
  · refine congrArg (Program.ask _) (funext fun reply => ?_)
    cases reply <;> rfl
  · rfl

/-- An exchange fails before anything is sent, or it sends one request. -/
theorem cases_of_exchange {α : Type} (host : String) (segments : List String)
    (method : Http.Method) (body : Option Json) (judge : Http.Response → Except ClusterError α) :
    (∃ e, e.isNotFound = false ∧ exchange host segments method body judge = .done (.error e)) ∨
      ∃ base q lost, Url.parse? host = some base ∧ q.method = method ∧ q.body = body ∧
        q.url = { origin base with path := (base.below segments).path } ∧
        lost.isNotFound = false ∧ exchange host segments method body judge =
          .ask (.cluster q) fun response => .done (concluded judge lost response) := by
  cases hbase : Url.parse? host with
  | none => exact .inl ⟨_, rfl, exchange_of_none hbase ..⟩
  | some base =>
    rw [exchange_of_parse hbase]
    split
    · exact .inr ⟨base, _, _, rfl, rfl, rfl, rfl, rfl, rfl⟩
    · exact .inl ⟨_, rfl, rfl⟩

/-- The request of an exchange. -/
theorem mayAsk_exchange_iff {α : Type} {host : String} {base : Url}
    (hbase : Url.parse? host = some base) {segments : List String} {method : Http.Method}
    {body : Option Json} {judge : Http.Response → Except ClusterError α} {q : Http.Request} :
    (exchange host segments method body judge).MayAsk (.cluster q) ↔
      sendable (splitCredentials (base.below segments)).2 = true ∧
        q = ⟨method, { origin base with path := (base.below segments).path }, body,
          (splitCredentials (base.below segments)).1⟩ := by
  rw [exchange_of_parse hbase]
  split
  · next hsendable => simp [hsendable]
  · next hsendable => simp [hsendable]

/-- The request that a question about a connector makes. -/
theorem url_of_mayAsk {host name : String} {words : List String} {base : Url}
    (hbase : Url.parse? host = some base) {n : Neighbour} {q : Http.Request}
    (hn : n.target? = some (host, name, words)) (h : n.overWire.MayAsk (.cluster q)) :
    q.url = { origin base with path := (base.below ("connectors" :: name :: words)).path } := by
  cases n <;> simp only [Neighbour.target?, Option.some.injEq, Prod.mk.injEq, reduceCtorEq] at hn
  all_goals
    obtain ⟨rfl, rfl, rfl⟩ := hn
    rw [((mayAsk_exchange_iff hbase).1 h).2]

/-- Requests about connectors of different plain names differ in their address. -/
theorem url_ne_of_mayAsk {host name name' : String} {words words' : List String} {base : Url}
    (hbase : Url.parse? host = some base) {n n' : Neighbour} {q q' : Http.Request}
    (hn : n.target? = some (host, name, words)) (hn' : n'.target? = some (host, name', words'))
    (hq : n.overWire.MayAsk (.cluster q)) (hq' : n'.overWire.MayAsk (.cluster q'))
    (hname : Url.Plain name) (hname' : Url.Plain name') (hne : name ≠ name') :
    q.url.text ≠ q'.url.text := by
  intro heq
  rw [url_of_mayAsk hbase hn hq, url_of_mayAsk hbase hn' hq',
    Url.below_of_plain (Neighbour.fixed_of_target? hn) hname,
    Url.below_of_plain (Neighbour.fixed_of_target? hn') hname'] at heq
  have hsegment := Url.segment_of_text_eq (by simp) heq
  exact hne (Text.Percent.encode_inj (Url.segmentSet_percent _) (String.ofList_inj.1 hsegment))

end Connect

/-! ## Which connector a request addresses -/

open Connect (endpoint origin)
open Program (onlyAsks_done onlyAsks_ask onlyAsks_bind)

/-- Changing a record takes no request to a cluster. -/
theorem patch_asks_api (r : Record) (part : String) (body : Json) :
    (Store.patch r part body).OnlyAsks fun q => ∃ request, q = .api request := by
  unfold Store.patch
  split
  · exact onlyAsks_done _
  · refine onlyAsks_bind ?_ fun result => ?_
    · unfold Api.exchange
      split
      · exact onlyAsks_done _
      · exact onlyAsks_ask ⟨_, rfl⟩ fun _ => onlyAsks_done _
    · rcases result with _ | _ <;> exact onlyAsks_done _

theorem addFinalizer_asks_api (r : Record) :
    (Store.addFinalizer r).OnlyAsks fun q => ∃ request, q = .api request := by
  unfold Store.addFinalizer
  split
  · exact onlyAsks_done _
  · split
    · exact onlyAsks_done _
    · exact patch_asks_api _ _ _

theorem removeFinalizer_asks_api (r : Record) :
    (Store.removeFinalizer r).OnlyAsks fun q => ∃ request, q = .api request := by
  refine onlyAsks_bind (patch_asks_api _ _ _) fun result => ?_
  rcases result with _ | _ <;> exact onlyAsks_done _

/-- A request of a pass creates the connector of the record, or comes of a question
about it. -/
theorem cases_of_mayAsk_pass {resync : Duration} {r : Record} {name : String} {base : Url}
    (hbase : Url.parse? r.spec.host = some base) (hname : r.connectorName = some name)
    {q : Http.Request} (h : (pass resync r).overWire.MayAsk (.cluster q)) :
    (q.method = .post ∧ q.url = { origin base with path := base.stem ++ ["connectors"] } ∧
      q.body = some (.record [("name", .text name), ("config", configJson r.spec.config)])) ∨
    ∃ (n : Neighbour) (words : List String), n.target? = some (r.spec.host, name, words) ∧
      n.overWire.MayAsk (.cluster q) := by
  obtain ⟨n, hn, hq⟩ := Program.exists_mayAsk_of_run h
  have hconcerns := pass_concerns resync r n hn
  cases n with
  | create host config =>
    left
    obtain ⟨rfl, rfl, -⟩ := hconcerns
    obtain ⟨-, rfl⟩ := (Connect.mayAsk_exchange_iff hbase).1 hq
    refine ⟨rfl, ?_, ?_⟩
    · rw [Url.below_connectors]
      rfl
    · rw [Connect.namedConfig, ← Record.connectorName, hname]
      rfl
  | addFinalizer r => exact absurd (addFinalizer_asks_api r _ hq) (by simp)
  | removeFinalizer r => exact absurd (removeFinalizer_asks_api r _ hq) (by simp)
  | patchStatus r status => exact absurd (patch_asks_api r _ _ _ hq) (by simp)
  | clock =>
    have hclock : (Program.question Wire.clock).MayAsk (.cluster q) := hq
    simp [Program.question] at hclock
  | lookup _ _ | readConfig _ _ | readStatus _ _ | update _ _ _ | delete _ _ =>
    right
    obtain ⟨rfl, hname', -⟩ := hconcerns
    obtain rfl := Option.some.inj (hname.symm.trans hname')
    exact ⟨_, _, rfl, hq⟩

/-- Exactly the plain names are addressed by what is asked about them.  Questions
about different plain names never share an address, every name shares its own
with one that is not plain, and a pass asks about the name that it creates. -/
theorem request_names_connector_iff {host : String} {base : Url}
    (hbase : Url.parse? host = some base) :
    (∀ (n : Neighbour) (name : String) (words : List String),
      n.target? = some (host, name, words) →
      ∃ path, endpoint host ("connectors" :: name :: words) = .ok { base with path } ∧
        (∀ q, n.overWire.MayAsk (.cluster q) → q.url = { origin base with path }) ∧
        (base.Names name words path ↔ Url.Plain name)) ∧
    (∀ (n n' : Neighbour) (name name' : String) (words words' : List String)
      (q q' : Http.Request), n.target? = some (host, name, words) →
      n'.target? = some (host, name', words') → n.overWire.MayAsk (.cluster q) →
      n'.overWire.MayAsk (.cluster q') → Url.Plain name → Url.Plain name' → name ≠ name' →
      q.url.text ≠ q'.url.text) ∧
    (∀ name : String, ∃ name', name' ≠ name ∧ ¬ Url.Plain name' ∧ ∀ words,
      endpoint host ("connectors" :: name' :: words) =
        endpoint host ("connectors" :: name :: words)) ∧
    ∀ (resync : Duration) (r : Record) (name : String) (q : Http.Request),
      r.spec.host = host → r.connectorName = some name →
      (pass resync r).overWire.MayAsk (.cluster q) →
      (q.method = .post ∧ q.url = { origin base with path := base.stem ++ ["connectors"] } ∧
        q.body = some (.record [("name", .text name), ("config", configJson r.spec.config)])) ∨
      ∃ (n : Neighbour) (words : List String), n.target? = some (host, name, words) ∧
        n.overWire.MayAsk (.cluster q) := by
  refine ⟨fun n name words hn => ?_, fun n n' name name' words words' q q' hn hn' hq hq' => ?_,
    fun name => ?_, fun resync r name q hhost hname hq => ?_⟩
  · refine ⟨(base.below ("connectors" :: name :: words)).path, ?_, fun q hq => ?_, ?_⟩
    · exact Connect.endpoint_eq hbase _
    · exact Connect.url_of_mayAsk hbase hn hq
    · exact Url.names_below_iff (Neighbour.fixed_of_target? hn)
  · exact Connect.url_ne_of_mayAsk hbase hn hn' hq hq'
  · obtain ⟨name', hne, hplain, heq⟩ := Url.exists_below_eq name
    refine ⟨name', hne, hplain, fun words => ?_⟩
    rw [Connect.endpoint_eq hbase, Connect.endpoint_eq hbase, heq]
  · subst hhost
    exact cases_of_mayAsk_pass hbase hname hq

/-- Two names, one of which continues the other behind a slash, at a cluster
without a path of its own. -/
theorem orders_requests_differ :
    let host := "http://dbz:8083"
    let base : Url := ⟨"http", "", none, some "dbz", some 8083, [""], none, none⟩
    let r : Record := ⟨{ Metadata.empty with finalizers := some [finalizer] },
      ⟨host, .ofList [("name", "orders")]⟩, none⟩
    let q : Http.Request := ⟨.get, { base with path := ["connectors", "orders"] }, none, none⟩
    let q' : Http.Request :=
      ⟨.delete, { base with path := ["connectors", "orders%2Feu"] }, none, none⟩
    base.Names "orders" [] q.url.path ∧ q.url.text ≠ q'.url.text ∧
      (∃ name', name' ≠ "orders" ∧ ¬ Url.Plain name' ∧ ∀ words,
        endpoint host ("connectors" :: name' :: words) =
          endpoint host ("connectors" :: "orders" :: words)) ∧
      (pass ⟨0, by decide⟩ r).overWire.MayAsk (.cluster q) ∧
      ∃ (n : Neighbour) (words : List String), n.target? = some (host, "orders", words) ∧
        n.overWire.MayAsk (.cluster q) := by
  intro host base r q q'
  have hbase : Url.parse? host = some base := by cbv
  have hq : (Neighbour.lookup host "orders").overWire.MayAsk (.cluster q) :=
    (Connect.mayAsk_exchange_iff hbase).2 ⟨by decide +kernel, by cbv⟩
  have hq' : (Neighbour.delete host "orders/eu").overWire.MayAsk (.cluster q') :=
    (Connect.mayAsk_exchange_iff hbase).2 ⟨by decide +kernel, by cbv⟩
  have hplain : Url.Plain "orders" := by decide +kernel
  have hname : r.connectorName = some "orders" := by cbv
  have hpass : (pass ⟨0, by decide⟩ r).overWire.MayAsk (.cluster q) := by
    have hstage : r.lifecycle = .synced := by cbv
    simp only [pass, hstage, sync, hname]
    exact (Program.mayAsk_bind ..).2 (.inl hq)
  obtain ⟨haddress, hdiffer, hshared, hquestions⟩ := request_names_connector_iff hbase
  obtain ⟨path, -, hpath, hnames⟩ := haddress (.lookup host "orders") "orders" [] rfl
  refine ⟨?_, ?_, hshared "orders", hpass, ?_⟩
  · rw [hpath q hq]
    exact hnames.2 hplain
  · exact hdiffer _ _ _ _ _ _ q q' rfl rfl hq hq' hplain (by decide +kernel) (by decide)
  · exact (hquestions _ r "orders" q rfl hname hpass).resolve_left fun h => by cases h.1

/-- The connectors `a⇥b` and `ab` have one address, which names the second. -/
theorem tab_shares_address :
    let host := "http://dbz:8083"
    let base : Url := ⟨"http", "", none, some "dbz", some 8083, [""], none, none⟩
    "a\tb" ≠ "ab" ∧
      endpoint host ["connectors", "a\tb"] = .ok { base with path := ["connectors", "ab"] } ∧
      endpoint host ["connectors", "ab"] = .ok { base with path := ["connectors", "ab"] } ∧
      ¬ base.Names "a\tb" [] ["connectors", "ab"] := by
  intro host base
  refine ⟨by decide, by cbv, by cbv, ?_⟩
  rintro ⟨s, hpath, hs⟩
  obtain rfl : "ab" = s := by simpa [Url.stem, Url.openEnd, Url.popEmpty, base] using hpath
  exact absurd hs (by decide +kernel)

end ConnectorKeeper
