import Mathlib
import ConnectorKeeper.Store

/-!
# Targets of requests to the API server

Which requests can be built, and what they hold.  A target is split into a path
and a query; one without signs that end a path, followed by the question mark that a
change carries, is its own path (`splitTarget_unmarked`).

A patch of a record is one request, unless none can be built (`Store.cases_of_patch`).
Its path names the record (`Store.Names`) if it is not cut short.
-/

namespace ConnectorKeeper.Api

/-! ## Splitting -/

/-- A text without the signs that end a path. -/
def Unmarked (s : String) : Prop := ∀ c ∈ s.toList, c ≠ '?' ∧ c ≠ '#'

theorem Unmarked.append {a b : String} (ha : Unmarked a) (hb : Unmarked b) :
    Unmarked (a ++ b) := by
  unfold Unmarked
  rw [String.toList_append]
  exact List.forall_mem_append.2 ⟨ha, hb⟩

theorem ne_mark_of_inPath {c : Char} (h : inPath c = true) : c ≠ '?' ∧ c ≠ '#' := by
  constructor
  · rintro rfl
    exact absurd h (by decide)
  · rintro rfl
    exact absurd h (by decide)

/-- All characters of a text may stand in a path. -/
def Plain (s : String) : Prop := s.toList.all inPath = true

instance (s : String) : Decidable (Plain s) := inferInstanceAs (Decidable (_ = true))

theorem Plain.append {a b : String} (ha : Plain a) (hb : Plain b) : Plain (a ++ b) := by
  unfold Plain at *
  rw [String.toList_append, List.all_append, ha, hb]
  rfl

theorem Plain.unmarked {s : String} (h : Plain s) : Unmarked s :=
  fun c hc => ne_mark_of_inPath (List.all_eq_true.1 h c hc)

/-- A path with a question mark behind it is split into itself and no query, if it may be
sent. -/
theorem splitTarget_unmarked {path : String} (hpath : Unmarked path) :
    splitTarget (path ++ "?") =
      if Http.targetLimit < (path ++ "?").utf8ByteSize then .error (.buildRequest longTarget)
      else if path.toList.all inPath then .ok (path, "")
      else .error (.buildRequest invalidTarget) := by
  have hkept : (path ++ "?").toList.takeWhile (· ≠ '#') = path.toList ++ ['?'] := by
    rw [String.toList_append, List.takeWhile_append_of_pos]
    · rfl
    · intro c hc
      simpa using (hpath c hc).2
  have hcut : (path.toList ++ ['?']).takeWhile (· ≠ '?') = path.toList := by
    rw [List.takeWhile_append_of_pos, List.takeWhile_cons_of_neg (by simp), List.append_nil]
    intro c hc
    simpa using (hpath c hc).1
  simp only [splitTarget, hkept, hcut, String.ofList_toList]
  simp

/-- A plain path of modest length can be sent, and is its own. -/
theorem splitTarget_plain {path : String} (hplain : Plain path)
    (hsize : path.utf8ByteSize < Http.targetLimit) :
    splitTarget (path ++ "?") = .ok (path, "") := by
  have hall : path.toList.all inPath = true := hplain
  have hlimit : ¬ Http.targetLimit < (path ++ "?").utf8ByteSize := by
    have hmark : "?".utf8ByteSize = 1 := by decide
    rw [String.utf8ByteSize_append, hmark]
    omega
  rw [splitTarget_unmarked hplain.unmarked, if_neg hlimit, if_pos hall]

/-- Whatever is sent of an unmarked path is the whole of it. -/
theorem path_of_splitTarget {path : String} {target : String × String} (hpath : Unmarked path)
    (h : splitTarget (path ++ "?") = .ok target) : target.1 = path := by
  rw [splitTarget_unmarked hpath] at h
  split at h
  · cases h
  · split at h <;> cases h
    rfl

/-- A target that cannot be sent is an error of building the request. -/
theorem exists_cause_of_splitTarget {target : String} {e : Error}
    (h : splitTarget target = .error e) : ∃ cause, e = .buildRequest cause := by
  simp only [splitTarget] at h
  split at h
  · cases h
    exact ⟨_, rfl⟩
  · split at h
    · cases h
    · cases h
      exact ⟨_, rfl⟩

/-- A target that begins with plain characters has a path that does. -/
theorem isPrefix_path_of_splitTarget {start target : String} {parts : String × String}
    (hplain : Plain start) (hstart : start.toList <+: target.toList)
    (h : splitTarget target = .ok parts) : start.toList <+: parts.1.toList := by
  have hmem := hplain.unmarked
  obtain ⟨rest, hrest⟩ := hstart
  have hpath : (target.toList.takeWhile (· ≠ '#')).takeWhile (· ≠ '?') =
      start.toList ++ (rest.takeWhile (· ≠ '#')).takeWhile (· ≠ '?') := by
    rw [← hrest, List.takeWhile_append_of_pos, List.takeWhile_append_of_pos]
    · intro c hc
      simpa using (hmem c hc).1
    · intro c hc
      simpa using (hmem c hc).2
  simp only [splitTarget, hpath] at h
  split at h
  · cases h
  · split at h
    · cases h
      rw [String.toList_ofList]
      exact List.prefix_append ..
    · cases h

/-! ## Requests -/

section Requests

variable {method : Http.Method} {collection name part parameters : String} {body : Option Json}

theorem map_eq_ok_iff {ε α β : Type} {x : Except ε α} {f : α → β} {b : β} :
    x.map f = .ok b ↔ ∃ a, x = .ok a ∧ b = f a := by
  cases x with
  | error e => simp [Except.map]
  | ok a => simp [Except.map, eq_comm]

theorem map_eq_error_iff {ε α β : Type} {x : Except ε α} {f : α → β} {e : ε} :
    x.map f = .error e ↔ x = .error e := by
  cases x with
  | error e => simp [Except.map]
  | ok a => simp [Except.map]

/-- A request for an object needs a name, and a target that can be sent. -/
theorem objectRequest_eq_ok_iff {q : Request} :
    objectRequest method collection name part parameters body = .ok q ↔
      name ≠ "" ∧ ∃ target, splitTarget (collection ++ "/" ++ name ++ part ++
        (if method = .get then "" else "?") ++ parameters) = .ok target ∧
          q = ⟨method, target.1, target.2, body⟩ := by
  unfold objectRequest
  split
  · next hname => simp [hname]
  · next hname => simp only [map_eq_ok_iff, ne_eq, hname, not_false_eq_true, true_and]

/-- A request that creates goes to the collection and carries the object. -/
theorem createRequest_eq_ok_iff {body : Json} {q : Request} :
    createRequest collection body = .ok q ↔ ∃ target,
      splitTarget (collection ++ "?") = .ok target ∧
        q = ⟨.post, target.1, target.2, some body⟩ := map_eq_ok_iff

theorem method_of_objectRequest {q : Request}
    (h : objectRequest method collection name part parameters body = .ok q) :
    q.method = method := by
  obtain ⟨-, _, -, rfl⟩ := objectRequest_eq_ok_iff.1 h
  rfl

theorem body_of_objectRequest {q : Request}
    (h : objectRequest method collection name part parameters body = .ok q) : q.body = body := by
  obtain ⟨-, _, -, rfl⟩ := objectRequest_eq_ok_iff.1 h
  rfl

theorem method_of_createRequest {body : Json} {q : Request}
    (h : createRequest collection body = .ok q) : q.method = .post := by
  obtain ⟨_, -, rfl⟩ := createRequest_eq_ok_iff.1 h
  rfl

theorem body_of_createRequest {body : Json} {q : Request}
    (h : createRequest collection body = .ok q) : q.body = some body := by
  obtain ⟨_, -, rfl⟩ := createRequest_eq_ok_iff.1 h
  rfl

/-- Where no request can be built, the error says so. -/
theorem exists_cause_of_objectRequest {e : Error}
    (h : objectRequest method collection name part parameters body = .error e) :
    ∃ cause, e = .buildRequest cause := by
  unfold objectRequest at h
  split at h
  · cases h
    exact ⟨_, rfl⟩
  · exact exists_cause_of_splitTarget (map_eq_error_iff.1 h)

end Requests

end ConnectorKeeper.Api

/-! ## Patches of a record -/

namespace ConnectorKeeper.Store

theorem collection_eq (space : String) :
    collection space = "/apis/" ++ apiVersion ++ "/namespaces/" ++ space ++ ("/" ++ recordPlural) :=
  String.append_assoc ..

/-- A path names a record, or its status. -/
def Names (r : Record) (path : String) : Prop :=
  ∃ space name part, address r = .ok (space, name) ∧ (part = "" ∨ part = "/status") ∧
    path = collection space ++ "/" ++ name ++ part

/-- A path names records of one address alike. -/
theorem names_congr {r r' : Record} (h : address r = address r') {path : String} :
    Names r path ↔ Names r' path := by
  rw [Names, Names, h]

/-- The result of a patch. -/
def written : Except Api.Error Record → Except StoreError Unit
  | .ok _ => .ok ()
  | .error e => .error (.api e)

/-- A patch whose request can be built is that request, judged by its answer. -/
theorem patch_of_request {r : Record} {part space name : String} {body : Json} {q : Api.Request}
    (haddress : address r = .ok (space, name))
    (hq : Api.objectRequest .patch (collection space) name part "" (some body) = .ok q) :
    patch r part body =
      .ask (.api q) fun reply => .done (written (Api.judge Record.decoder reply)) := by
  simp only [patch, haddress, hq]
  refine congrArg (Program.ask _) (funext fun reply => ?_)
  simp only [Program.bind]
  cases Api.judge Record.decoder reply <;> rfl

/-- A request goes where a part of a record is, as far as that can be sent. -/
def GoesTo (r : Record) (part : String) (q : Api.Request) : Prop :=
  ∃ space name target, address r = .ok (space, name) ∧
    Api.splitTarget (collection space ++ "/" ++ name ++ part ++ "?") = .ok target ∧
      q.path = target.1

/-- A patch fails before anything is sent, or sends one request. -/
theorem cases_of_patch (r : Record) (part : String) (body : Json) :
    (∃ e, StoreError.isGone e = false ∧ patch r part body = .done (.error e)) ∨
      ∃ q, GoesTo r part q ∧ q.method = .patch ∧ q.body = some body ∧ patch r part body =
        .ask (.api q) fun reply => .done (written (Api.judge Record.decoder reply)) := by
  cases haddress : address r with
  | error e =>
    refine .inl ⟨e, ?_, by rw [patch, haddress]⟩
    unfold address at haddress
    split at haddress <;> cases haddress <;> rfl
  | ok place =>
    obtain ⟨space, name⟩ := place
    cases hq : Api.objectRequest .patch (collection space) name part "" (some body) with
    | error e =>
      obtain ⟨cause, rfl⟩ := Api.exists_cause_of_objectRequest hq
      exact .inl ⟨_, rfl, by simp only [patch, haddress, hq]; rfl⟩
    | ok q =>
      have hpatch := patch_of_request haddress hq
      obtain ⟨-, target, htarget, rfl⟩ := Api.objectRequest_eq_ok_iff.1 hq
      rw [if_neg (by decide), String.append_empty] at htarget
      exact .inr ⟨_, ⟨space, name, target, haddress, htarget, rfl⟩, rfl, rfl, hpatch⟩

end ConnectorKeeper.Store
