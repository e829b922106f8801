import ConnectorKeeper.Json.MergePatch
import ConnectorKeeper.Proofs.Addressing
import ConnectorKeeper.Proofs.Targets

/-!
# What a request is about

Clusters and the API server see requests, not the questions that these are sent for.
So it is read off a request what it is about: a connector, told by the URL or, where it
is created, by the body (`Connect.address`), or a record, told by the path
(`Store.named?`).

A pass sends no request that is not about its own record or the connector that this
names (`pass_requests`).  A connector of a plain name has one address
(`Record.addresses_of_plain`).  One of another name may have several, since what is asked
about it goes to different places.
-/

namespace ConnectorKeeper

/-! ## Connectors -/

namespace Connect

/-- A connector, as requests tell it from others. -/
structure Address where
  /-- The URL that the connectors of its cluster lie below. -/
  cluster : Url
  /-- The bytes of its name, none for what is no connector. -/
  name : Option (List UInt8)
deriving DecidableEq

/-- The segments of a path, the last one first, up to the name of a connector: without the
word for its configuration or its status. -/
def upToName : List String → List String
  | word :: name :: place :: front =>
      if place = "connectors" ∧ (word = "config" ∨ word = "status") then name :: place :: front
      else word :: name :: place :: front
  | path => path

/-- The connector at a URL. -/
def addressAt (url : Url) : Address :=
  match upToName url.path.reverse with
  | name :: place :: front =>
      if place = "connectors" then
        ⟨{ url with path := front.reverse }, some (Text.Percent.decode name.toList)⟩
      else ⟨url, none⟩
  | _ => ⟨url, none⟩

/-- The name that a body gives the connector to be created. -/
def nameCreated? (body : Json) : Option (List UInt8) :=
  match Json.valueAt (some "name") body.members with
  | .string name => name.map Text.utf8
  | _ => none

/-- The connector that a request is about. -/
def address (q : Http.Request) : Address :=
  if q.method = .post then
    match q.url.path.reverse with
    | place :: front =>
        if place = "connectors" then
          ⟨{ q.url with path := front.reverse }, q.body.bind nameCreated?⟩
        else ⟨q.url, none⟩
    | [] => ⟨q.url, none⟩
  else addressAt q.url

variable {base : Url} {name : String}

theorem address_of_creation {config : Config} (hname : config.get? nameKey = some name)
    (authorization : Option String) :
    address ⟨.post, { origin base with path := (base.below ["connectors"]).path },
        some (namedConfig config), authorization⟩ =
      ⟨{ origin base with path := base.stem }, some (Text.utf8 name)⟩ := by
  have hbody : nameCreated? (namedConfig config) = some (Text.utf8 name) := by
    rw [namedConfig, hname]
    rfl
  simp [address, Url.below_connectors, hbody]

/-- Below a base that does not end in the word for connectors itself, the resources of a
connector of a plain name are told by that name. -/
theorem addressAt_of_plain {words : List String} (hplain : Url.Plain name)
    (hstem : base.stem.getLast? ≠ some "connectors")
    (hwords : words = [] ∨ words = ["config"] ∨ words = ["status"]) :
    addressAt { origin base with path := (base.below ("connectors" :: name :: words)).path } =
      ⟨{ origin base with path := base.stem }, some (Text.utf8 name)⟩ := by
  have hpath := @Url.below_of_plain base name words (Url.fixed_of_part hwords) hplain
  have hname := Url.decode_segment (Url.isSpecial base.scheme) name
  generalize Url.segment (Url.isSpecial base.scheme) name = s at hpath hname
  have hup : upToName (base.below ("connectors" :: name :: words)).path.reverse =
      s :: "connectors" :: base.stem.reverse := by
    rw [hpath]
    obtain rfl | rfl | rfl := hwords
    · -- the last segment of the stem decides whether the name could be the word for a part
      rw [List.getLast?_eq_head?_reverse] at hstem
      cases hrest : base.stem.reverse with
      | nil => simp [upToName, hrest]
      | cons last front =>
        have hlast : last ≠ "connectors" := by simpa [hrest] using hstem
        simp [upToName, hrest, hlast]
    · simp [upToName]
    · simp [upToName]
  simp only [addressAt, hup, if_true, List.reverse_reverse, hname]

end Connect

namespace Record

/-- The addresses of the connector that a record names: where it is created, and where its
resources are. -/
def addresses (r : Record) : List Connect.Address :=
  match Url.parse? r.spec.host, r.connectorName with
  | some base, some name =>
      ⟨{ Connect.origin base with path := base.stem }, some (Text.utf8 name)⟩ ::
        [[], ["config"], ["status"]].map fun words => Connect.addressAt
          { Connect.origin base with path := (base.below ("connectors" :: name :: words)).path }
  | _, _ => []

variable {r : Record} {base : Url} {name : String}

theorem addresses_eq (hbase : Url.parse? r.spec.host = some base)
    (hname : r.connectorName = some name) :
    r.addresses = ⟨{ Connect.origin base with path := base.stem }, some (Text.utf8 name)⟩ ::
      [[], ["config"], ["status"]].map fun words => Connect.addressAt
        { Connect.origin base with path := (base.below ("connectors" :: name :: words)).path } := by
  rw [addresses, hbase, hname]

/-- A connector of a plain name has one address. -/
theorem addresses_of_plain (hbase : Url.parse? r.spec.host = some base)
    (hname : r.connectorName = some name) (hplain : Url.Plain name)
    (hstem : base.stem.getLast? ≠ some "connectors") {a : Connect.Address}
    (ha : a ∈ r.addresses) :
    a = ⟨{ Connect.origin base with path := base.stem }, some (Text.utf8 name)⟩ := by
  rw [addresses_eq hbase hname, List.mem_cons, List.mem_map] at ha
  obtain rfl | ⟨words, hwords, rfl⟩ := ha
  · rfl
  · exact Connect.addressAt_of_plain hplain hstem (by simpa using hwords)

end Record

/-! ## Records -/

namespace Api

/-- The segments of a path. -/
def segments (path : String) : List String := (path.toList.splitOn '/').map String.ofList

/-- The segments of a path are what was joined by slashes. -/
theorem segments_of_join {path : String} {l : List String} (hne : l ≠ [])
    (hslash : ∀ s ∈ l, '/' ∉ s.toList)
    (hpath : path.toList = ['/'].intercalate (l.map String.toList)) : segments path = l := by
  have hsplit := List.splitOn_intercalate '/'
    (List.forall_mem_map.2 hslash) (List.map_eq_nil_iff.not.2 hne)
  rw [segments, hpath, hsplit, List.map_map]
  exact (List.map_congr_left fun s _ => String.ofList_toList).trans (List.map_id l)

/-- A text that the API server takes for a name: no sign in it ends or divides a path, or
begins a code. -/
def Segment (s : String) : Prop := ∀ c ∈ s.toList, c ≠ '/' ∧ c ≠ '?' ∧ c ≠ '#' ∧ c ≠ '%'

instance (s : String) : Decidable (Segment s) := List.decidableBAll _ _

theorem Segment.slash {s : String} (h : Segment s) : '/' ∉ s.toList :=
  fun hc => (h '/' hc).1 rfl

theorem Segment.unmarked {s : String} (h : Segment s) : Unmarked s :=
  fun c hc => ⟨(h c hc).2.1, (h c hc).2.2.1⟩

end Api

namespace Record

/-- The namespace and name of a record. -/
def identity (r : Record) : String × String := (r.metadata.namespaceName.getD "", r.anyName)

/-- Namespace and name of a record, where it has them, are names for the API server, which
keeps no record of any other.  They stand in a path as they are, so that records of other
names could share one, and no request would tell which of them it is about. -/
structure Named (r : Record) : Prop where
  /-- The namespace is. -/
  space : ∀ s, r.metadata.namespaceName = some s → Api.Segment s
  /-- The name is. -/
  name : ∀ s, r.metadata.name = some s → Api.Segment s

theorem Named.slash {r : Record} (h : r.Named) :
    '/' ∉ (r.metadata.namespaceName.getD "").toList := by
  cases hspace : r.metadata.namespaceName with
  | none => simp
  | some s => exact (h.space s hspace).slash

end Record

namespace Store

/-- What stands before the namespace in the path of a record. -/
def root : List String := ["", "apis", recordGroup, recordVersion, "namespaces"]

/-- The namespace and name of the record that a path leads to, or to whose status. -/
def named? (path : String) : Option (String × String) :=
  match (Api.segments path).splitAt root.length with
  | (front, space :: plural :: name :: part) =>
      if front = root ∧ plural = recordPlural ∧ (part = [] ∨ part = ["status"]) then
        some (space, name)
      else none
  | _ => none

theorem eq_of_address {r : Record} {space name : String} (h : address r = .ok (space, name)) :
    r.metadata.namespaceName = some space ∧ r.metadata.name = some name := by
  unfold address at h
  split at h
  · cases h
  · cases h
  · next hspace hname =>
    cases h
    exact ⟨hspace, hname⟩

theorem unmarked_collection {space : String} (h : Api.Segment space) :
    Api.Unmarked (collection space) := by
  have hbefore : Api.Plain ("/apis/" ++ apiVersion ++ "/namespaces/") := by decide
  have hplural : Api.Plain ("/" ++ recordPlural) := by decide
  rw [collection_eq]
  exact (hbefore.unmarked.append h.unmarked).append hplural.unmarked

/-- What goes to a record is not cut short. -/
theorem GoesTo.names {r : Record} {part : String} {q : Api.Request} (h : GoesTo r part q)
    (hr : r.Named) (hpart : part = "" ∨ part = "/status") : Names r q.path := by
  obtain ⟨space, name, target, haddress, htarget, hpath⟩ := h
  obtain ⟨hspace, hname⟩ := eq_of_address haddress
  have hunmarked : Api.Unmarked (collection space ++ "/" ++ name ++ part) := by
    have hslash : Api.Plain "/" := by decide
    have hpart : Api.Plain part := by obtain rfl | rfl := hpart <;> decide
    exact (((unmarked_collection (hr.space space hspace)).append hslash.unmarked).append
      (hr.name name hname).unmarked).append hpart.unmarked
  exact ⟨space, name, part, haddress, hpart,
    hpath.trans (Api.path_of_splitTarget hunmarked htarget)⟩

/-- The path of a record leads to it. -/
theorem Names.identity {r : Record} {path : String} (h : Names r path) (hr : r.Named) :
    named? path = some r.identity := by
  obtain ⟨space, name, part, haddress, hpart, rfl⟩ := h
  obtain ⟨hspace, hname⟩ := eq_of_address haddress
  obtain ⟨words, hwords, hpart⟩ : ∃ words : List String, (words = [] ∨ words = ["status"]) ∧
      part.toList = words.flatMap fun w => '/' :: w.toList := by
    obtain rfl | rfl := hpart
    · exact ⟨[], .inl rfl, rfl⟩
    · exact ⟨["status"], .inr rfl, by decide⟩
  have hslash : ∀ s ∈ root ++ space :: recordPlural :: name :: words, '/' ∉ s.toList := by
    have hroot : ∀ s ∈ root, '/' ∉ s.toList := by decide
    have hplural : '/' ∉ recordPlural.toList := by decide
    have hwords : ∀ s ∈ words, '/' ∉ s.toList := by obtain rfl | rfl := hwords <;> decide
    exact List.forall_mem_append.2 ⟨hroot, List.forall_mem_cons.2 ⟨(hr.space _ hspace).slash,
      List.forall_mem_cons.2 ⟨hplural, List.forall_mem_cons.2 ⟨(hr.name _ hname).slash, hwords⟩⟩⟩⟩
  have hsegments : Api.segments (collection space ++ "/" ++ name ++ part) =
      root ++ space :: recordPlural :: name :: words := by
    refine Api.segments_of_join (by simp) hslash ?_
    rw [String.toList_append, hpart, collection_eq]
    obtain rfl | rfl := hwords <;> simp [root, apiVersion, List.intercalate]
  have hidentity : (space, name) = r.identity := by
    rw [Record.identity, Record.anyName, hspace, hname]
    rfl
  simp [named?, hsegments, hwords, hidentity]

end Store

/-! ## Requests of a pass -/

/-- What is asked on the wire is about a record, or about the connector that it names. -/
def Wire.Concerns (r : Record) : Wire → Prop
  | .cluster q => Connect.address q ∈ r.addresses
  | .api q => Store.named? q.path = some r.identity
  | .clock => True

/-- The one request of an exchange. -/
theorem Connect.request_of_exchange {α : Type} {host : String} {segments : List String}
    {method : Http.Method} {body : Option Json} {judge : Http.Response → Except ClusterError α}
    {q : Wire} (h : (exchange host segments method body judge).MayAsk q) :
    ∃ base authorization, Url.parse? host = some base ∧ q = .cluster
      ⟨method, { origin base with path := (base.below segments).path }, body, authorization⟩ := by
  obtain ⟨e, -, heq⟩ | ⟨base, ⟨_, _, _, authorization⟩, _, hbase, rfl, rfl, rfl, -, heq⟩ :=
    cases_of_exchange host segments method body judge
  · rw [heq] at h
    exact absurd h (Program.not_mayAsk_done _ _)
  · rw [heq, Program.mayAsk_ask] at h
    obtain rfl | ⟨_, h⟩ := h
    · exact ⟨base, authorization, hbase, rfl⟩
    · exact absurd h (Program.not_mayAsk_done _ _)

/-- A patch of a record is about it. -/
theorem Store.concerns_of_patch {r : Record} {part : String} {body : Json} {q : Wire}
    (hr : r.Named) (hpart : part = "" ∨ part = "/status") (h : (patch r part body).MayAsk q) :
    q.Concerns r := by
  obtain ⟨e, -, hpatch⟩ | ⟨request, hgoes, -, -, hpatch⟩ := cases_of_patch r part body
  · rw [hpatch] at h
    exact absurd h (Program.not_mayAsk_done _ _)
  · rw [hpatch, Program.mayAsk_ask] at h
    obtain rfl | ⟨_, h⟩ := h
    · exact (hgoes.names hr hpart).identity hr
    · exact absurd h (Program.not_mayAsk_done _ _)

section Asked

variable {n : Neighbour} {r : Record} {q : Wire}

/-- A request about the resource of a connector that a record names is about one of its
addresses. -/
theorem Connect.concerns_of_resource {α : Type} {name : String} {words : List String}
    {method : Http.Method} {body : Option Json} {judge : Http.Response → Except ClusterError α}
    (hname : r.connectorName = some name)
    (hwords : words = [] ∨ words = ["config"] ∨ words = ["status"])
    (h : (exchange r.spec.host ("connectors" :: name :: words) method body judge).MayAsk q)
    (hmethod : method ≠ .post) : q.Concerns r := by
  obtain ⟨base, authorization, hbase, rfl⟩ := request_of_exchange h
  have haddress : address ⟨method,
      { origin base with path := (base.below ("connectors" :: name :: words)).path }, body,
        authorization⟩ = addressAt
      { origin base with path := (base.below ("connectors" :: name :: words)).path } :=
    if_neg hmethod
  rw [Wire.Concerns, haddress, Record.addresses_eq hbase hname]
  refine List.mem_cons_of_mem _ (List.mem_map.2 ⟨words, ?_, rfl⟩)
  simpa using hwords

/-- What is asked on the wire for a question is about what the question is about. -/
theorem Neighbour.concerns_of_mayAsk (hr : r.Named) (hn : n.Concerns r)
    (hq : n.overWire.MayAsk q) : q.Concerns r := by
  cases n with
  | lookup host name =>
    obtain ⟨rfl, hname, -⟩ := hn
    exact Connect.concerns_of_resource hname (.inl rfl) hq (by decide)
  | readConfig host name =>
    obtain ⟨rfl, hname, -⟩ := hn
    exact Connect.concerns_of_resource hname (.inr (.inl rfl)) hq (by decide)
  | readStatus host name =>
    obtain ⟨rfl, hname, -⟩ := hn
    exact Connect.concerns_of_resource hname (.inr (.inr rfl)) hq (by decide)
  | update host name config =>
    obtain ⟨rfl, hname, -⟩ := hn
    exact Connect.concerns_of_resource hname (.inr (.inl rfl)) hq (by decide)
  | delete host name =>
    obtain ⟨rfl, hname, -⟩ := hn
    exact Connect.concerns_of_resource hname (.inl rfl) hq (by decide)
  | create host config =>
    obtain ⟨rfl, rfl, hname, -⟩ := hn
    obtain ⟨name, hname⟩ := Option.isSome_iff_exists.1 hname
    obtain ⟨base, authorization, hbase, rfl⟩ := Connect.request_of_exchange hq
    rw [Wire.Concerns, Connect.address_of_creation hname, Record.addresses_eq hbase hname]
    exact List.mem_cons_self
  | addFinalizer r' =>
    obtain ⟨rfl, -⟩ := hn
    rw [overWire, Store.addFinalizer] at hq
    split at hq
    · exact absurd hq (Program.not_mayAsk_done _ _)
    · split at hq
      · exact absurd hq (Program.not_mayAsk_done _ _)
      · exact Store.concerns_of_patch hr (.inl rfl) hq
  | removeFinalizer r' =>
    obtain ⟨rfl, -⟩ := hn
    obtain hq | ⟨result, -, hq⟩ := (Program.mayAsk_bind ..).1 hq
    · exact Store.concerns_of_patch hr (.inl rfl) hq
    · cases result <;> exact absurd hq (Program.not_mayAsk_done _ _)
  | patchStatus r' status =>
    obtain ⟨rfl, -⟩ := hn
    exact Store.concerns_of_patch hr (.inr rfl) hq
  | clock =>
    obtain rfl | ⟨_, hq⟩ := (Program.mayAsk_ask ..).1 hq
    · trivial
    · exact absurd hq (Program.not_mayAsk_done _ _)

/-- A pass asks for nothing that is not about its record or the connector that this names. -/
theorem pass_requests (resync : Duration) (hr : r.Named) :
    (pass resync r).overWire.OnlyAsks (·.Concerns r) := by
  intro q hq
  obtain ⟨n, hn, hq⟩ := Program.exists_mayAsk_of_run hq
  exact Neighbour.concerns_of_mayAsk hr (pass_concerns resync r n hn) hq

end Asked

end ConnectorKeeper
