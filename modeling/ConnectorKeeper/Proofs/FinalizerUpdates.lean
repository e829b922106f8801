import ConnectorKeeper.Proofs.FaithfulWorld

/-!
# Updates of the finalizers beside other writers

Our finalizer is added and removed by patches that replace the whole list, made from
a snapshot of the record that may be old.  A patch names the version of its snapshot.
The API server refuses it if that is not the version of the record, and gives every
record that it stores a version of its own.

So a patch is applied only to the very record that it was made from
(`Store.Change.record_of_current`).  However many of our calls are under way, and
whatever others write meanwhile, the list is then the one that was stored, with our
finalizer added or removed, and no finalizer of others is lost or brought back
(`Store.Shared.update_of_leads`).
-/

namespace ConnectorKeeper

open Relation (ReflTransGen)

/-! ## Versions -/

/-- The version that a patch names. -/
def Json.versionNamed? (patch : Json) : Option String :=
  match valueAt (some "resourceVersion") (valueAt (some "metadata") patch.members).members with
  | .string version => version
  | _ => none

theorem Store.versionNamed_finalizersPatch (r : Record) (l : List String) :
    (finalizersPatch r l).versionNamed? = r.metadata.resourceVersion := by
  unfold finalizersPatch
  cases r.metadata.resourceVersion <;> rfl

/-- The version of the record in a document. -/
def StoredRecord.version (doc : StoredRecord) : Option String := doc.record.metadata.resourceVersion

/-- The document with the finalizers and the version replaced. -/
def StoredRecord.edited (doc : StoredRecord) (l : List String) (version : String) :
    StoredRecord where
  members := ((Json.object doc.members).merge (Store.finalizersPatch
    { doc.record with metadata := { doc.record.metadata with resourceVersion := some version } }
    l)).members
  record := doc.record.withFinalizers l (some version)
  reads := Record.decode_merge_finalizers doc.reads _ l

theorem StoredRecord.applies_edited (doc : StoredRecord) (r : Record) (l : List String)
    (version : String) : doc.Applies (Store.finalizersPatch r l) (doc.edited l version) :=
  ⟨_, some version, _, _, Record.decode_merge_finalizers doc.reads r l, rfl⟩

/-- A request names a version, and the document has another. -/
def StoredRecord.Outdates (doc : StoredRecord) (q : Api.Request) : Prop :=
  ∃ patch version, q.body = some patch ∧ patch.versionNamed? = some version ∧
    doc.version ≠ some version

/-- All documents of a record that have been stored, each under its own version. -/
structure Archive where
  /-- The document as it is now, none if the record is gone. -/
  stored : Option StoredRecord
  /-- All documents so far, the latest first. -/
  past : List StoredRecord
  /-- What is stored now is one of them. -/
  kept : ∀ doc, stored = some doc → doc ∈ past
  /-- Each has a version. -/
  versioned : ∀ doc ∈ past, doc.version.isSome
  /-- No two have the same. -/
  nodup : (past.map StoredRecord.version).Nodup

namespace Archive

variable {a a' : Archive} {doc doc' : StoredRecord} {q : Api.Request} {reply : Api.Reply}

/-- Nothing was stored yet. -/
def empty : Archive := ⟨none, [], by simp, by simp, .nil⟩

/-- The document has a version that no document had. -/
structure Fresh (a : Archive) (doc : StoredRecord) : Prop where
  /-- There is a version. -/
  versioned : doc.version.isSome
  /-- It is new. -/
  new : doc.version ∉ a.past.map StoredRecord.version

/-- A new document is stored. -/
def store (a : Archive) (doc : StoredRecord) (h : a.Fresh doc) : Archive where
  stored := some doc
  past := doc :: a.past
  kept := by
    rintro _ ⟨⟩
    exact List.mem_cons_self
  versioned := List.forall_mem_cons.2 ⟨h.versioned, a.versioned⟩
  nodup := List.nodup_cons.2 ⟨h.new, a.nodup⟩

/-- The record is removed. -/
def remove (a : Archive) : Archive := { a with stored := none, kept := by simp }

/-- Documents of one version are the same. -/
theorem eq_of_version (hdoc : doc ∈ a.past) (hdoc' : doc' ∈ a.past)
    (h : doc.version = doc'.version) : doc = doc' :=
  List.inj_on_of_nodup_map a.nodup hdoc hdoc' h

end Archive

/-! ## The API server -/

/-- A refusal with a status.  A description that comes with it tells of the same status. -/
def Api.Reply.Refuses (reply : Api.Reply) (status : Nat) : Prop :=
  ∃ body, reply = .answer status body ∧
    ∀ text, body.strict = some text → (Api.describeError status text).code = status

/-- Something else than success, or that the record is gone. -/
def Api.Reply.Fails (reply : Api.Reply) : Prop :=
  ∃ e, Api.judge Record.decoder reply = .error e ∧ Store.StoreError.isGone (.api e) = false

/-- What the API server does on a patch, and what comes back. -/
inductive Archive.Serves (a : Archive) (q : Api.Request) : Api.Reply → Archive → Prop
  /-- The record is gone. -/
  | missing {reply : Api.Reply} (hstored : a.stored = none) (hreply : reply.Refuses 404) :
      Serves a q reply a
  /-- The record has another version. -/
  | conflict {reply : Api.Reply} {doc : StoredRecord} (hstored : a.stored = some doc)
      (hnames : Store.Names doc.record q.path) (hstale : doc.Outdates q)
      (hreply : reply.Refuses 409) : Serves a q reply a
  /-- Something else is in the way. -/
  | failed {reply : Api.Reply} (hreply : reply.Fails) : Serves a q reply a
  /-- The patch is applied, whatever comes back of it. -/
  | applied {reply : Api.Reply} {patch : Json} {doc doc' : StoredRecord}
      (hstored : a.stored = some doc) (hnames : Store.Names doc.record q.path)
      (hbody : q.body = some patch) (hcurrent : ¬ doc.Outdates q)
      (happlies : doc.Applies patch doc') (hfresh : a.Fresh doc') :
      Serves a q reply (a.store doc' hfresh)

theorem Api.Reply.Refuses.judge {reply : Api.Reply} {status : Nat} (h : reply.Refuses status)
    (hstatus : Http.isError status = true) :
    ∃ e, Api.judge Record.decoder reply = .error e ∧
      (Store.StoreError.isGone (.api e) = true → status = 404) := by
  obtain ⟨body, rfl, hcode⟩ := h
  unfold Api.judge
  dsimp only
  split
  · exact ⟨_, rfl, nofun⟩
  · next text htext =>
    rw [if_pos hstatus]
    refine ⟨_, rfl, fun hgone => ?_⟩
    rw [← hcode text htext]
    exact eq_of_beq hgone

/-! ## Our calls -/

namespace Store

/-- A change of our finalizer. -/
inductive Change where
  /-- It is added. -/
  | add
  /-- It is removed. -/
  | remove

namespace Change

/-- The call that makes a change, from a snapshot of the record. -/
def call : Change → Record → Talk (Except StoreError Unit)
  | .add => addFinalizer
  | .remove => removeFinalizer

/-- What a change makes of the finalizers. -/
def edit : Change → List String → List String
  | .add, l => l ++ [finalizer]
  | .remove, l => l.filter (· ≠ finalizer)

/-- The finalizers of others stay, in their order and number. -/
theorem foreign_edit (change : Change) (l : List String) :
    (change.edit l).filter (· ≠ finalizer) = l.filter (· ≠ finalizer) := by
  cases change <;> simp [edit]

end Change

namespace Change

/-- The result of a call, after that of its patch. -/
def conclude : Change → Except StoreError Unit → Except StoreError Unit
  | .add, result => result
  | .remove, .ok () => .ok ()
  | .remove, .error e => if StoreError.isGone e then .ok () else .error e

/-- The result of a call that sends nothing. -/
def early : Change → Record → Option (Except StoreError Unit)
  | .add, r =>
      match address r with
      | .error e => some (.error e)
      | .ok _ => if r.finalizerPresent then some (.ok ()) else none
  | .remove, _ => none

theorem call_of_early {change : Change} {r : Record} {result : Except StoreError Unit}
    (h : change.early r = some result) : change.call r = .done result := by
  cases change with
  | add =>
    simp only [early] at h
    simp only [call, addFinalizer]
    cases haddress : address r with
    | error e => simpa [haddress] using h
    | ok =>
      by_cases hpresent : r.finalizerPresent
      · simpa [haddress, hpresent] using h
      · simp [haddress, hpresent] at h
  | remove => cases h

/-- Any other call is over after its patch. -/
theorem call_of_not_early {change : Change} {r : Record} (h : change.early r = none) :
    change.call r = Program.bind (patch r "" (finalizersPatch r (change.edit r.finalizers)))
      fun result => .done (change.conclude result) := by
  cases change with
  | add =>
    have hcall : addFinalizer r = patch r "" (finalizersPatch r (r.finalizers ++ [finalizer])) := by
      simp only [early] at h
      simp only [addFinalizer]
      split <;> simp_all
    simp only [call, hcall, edit]
    obtain ⟨e, -, h⟩ | ⟨q, -, -, -, h⟩ :=
      cases_of_patch r "" (finalizersPatch r (r.finalizers ++ [finalizer]))
    · rw [h]
      rfl
    · rw [h]
      rfl
  | remove =>
    refine congrArg (Program.bind _) (funext fun result => ?_)
    cases result <;> rfl

/-- A call sends one patch, and is over after it. -/
structure Sends (change : Change) (r : Record) (q : Api.Request) : Prop where
  /-- It is a patch. -/
  method : q.method = .patch
  /-- It sets the finalizers. -/
  body : q.body = some (finalizersPatch r (change.edit r.finalizers))
  /-- The result is that of the call. -/
  call : change.call r = .ask (.api q) fun reply =>
    .done (change.conclude (written (Api.judge Record.decoder reply)))

/-- A call is over at once, or it sends one patch. -/
theorem cases_of_call (change : Change) (r : Record) :
    (∃ result, change.call r = .done result) ∨ ∃ q, change.Sends r q := by
  cases hearly : change.early r with
  | some result => exact .inl ⟨result, call_of_early hearly⟩
  | none =>
    have hcall := call_of_not_early hearly
    obtain ⟨e, -, h⟩ | ⟨q, -, hmethod, hbody, h⟩ :=
      cases_of_patch r "" (finalizersPatch r (change.edit r.finalizers))
    · rw [h] at hcall
      exact .inl ⟨_, hcall⟩
    · rw [h] at hcall
      exact .inr ⟨q, hmethod, hbody, hcall⟩

/-- A call sends a patch, unless there is nothing to change. -/
theorem exists_sends (change : Change) {r : Record} (h : r.Addressable)
    (hneeded : change = .add → r.finalizerPresent = false) :
    ∃ q, change.Sends r q ∧ Names r q.path := by
  obtain ⟨space, name, haddress, hrequest⟩ := exists_request h (.inl rfl)
  obtain ⟨q, hq, hmethod, hbody, hnames⟩ := hrequest (finalizersPatch r (change.edit r.finalizers))
  have hearly : change.early r = none := by
    cases change with
    | add => simp [early, haddress, hneeded rfl]
    | remove => rfl
  have hcall := call_of_not_early hearly
  rw [patch_of_request haddress hq] at hcall
  exact ⟨q, ⟨hmethod, hbody, hcall⟩, hnames⟩

theorem exists_ask_of_call (change : Change) {r : Record} (h : r.Addressable)
    (hneeded : change = .add → r.finalizerPresent = false) :
    ∃ q resume, change.call r = .ask (.api q) resume ∧ Names r q.path := by
  obtain ⟨q, hq, hnames⟩ := change.exists_sends h hneeded
  exact ⟨q, _, hq.call, hnames⟩

/-- A patch that is not out of date was made from the record that is stored. -/
theorem record_of_current {change : Change} {a : Archive} {doc snapshot : StoredRecord}
    {q : Api.Request} (hsnapshot : snapshot ∈ a.past) (hstored : a.stored = some doc)
    (hbody : q.body =
      some (finalizersPatch snapshot.record (change.edit snapshot.record.finalizers)))
    (hcurrent : ¬ doc.Outdates q) : snapshot = doc := by
  obtain ⟨version, hversion⟩ := Option.isSome_iff_exists.1 (a.versioned snapshot hsnapshot)
  have hnamed := (versionNamed_finalizersPatch snapshot.record
    (change.edit snapshot.record.finalizers)).trans hversion
  have hsame : doc.version = some version := by
    by_contra hne
    exact hcurrent ⟨_, version, hbody, hnamed, hne⟩
  exact a.eq_of_version hsnapshot (a.kept doc hstored) (hversion.trans hsame.symm)

end Change

/-! ## Calls under way -/

/-- A call under way. -/
structure Call where
  /-- What it is to change. -/
  change : Change
  /-- The document that it started from. -/
  snapshot : StoredRecord
  /-- What is left of it. -/
  left : Talk (Except StoreError Unit)

/-- A call that starts. -/
def Call.start (change : Change) (snapshot : StoredRecord) : Call :=
  ⟨change, snapshot, change.call snapshot.record⟩

/-- The record, and our calls under way and over. -/
structure Shared where
  /-- The record. -/
  archive : Archive
  /-- The calls. -/
  calls : List Call

namespace Shared

/-- Nothing has happened. -/
def start : Shared := ⟨.empty, []⟩

/-- The archive is replaced. -/
def put (s : Shared) (a : Archive) : Shared := { s with archive := a }

/-- The calls are replaced. -/
def setCalls (s : Shared) (calls : List Call) : Shared := { s with calls }

/-- What may happen next. -/
inductive Next (s : Shared) : Shared → Prop
  /-- Another writer stores what it likes. -/
  | write {doc : StoredRecord} (hfresh : s.archive.Fresh doc) :
      Next s (s.put (s.archive.store doc hfresh))
  /-- The record is removed. -/
  | remove : Next s (s.put s.archive.remove)
  /-- A call starts from a document that was stored at some time. -/
  | call (change : Change) {snapshot : StoredRecord} (hpast : snapshot ∈ s.archive.past) :
      Next s (s.setCalls (.start change snapshot :: s.calls))
  /-- The question of a call is answered. -/
  | answer {before after : List Call} {c : Call} {q : Api.Request}
      {resume : Api.Reply → Talk (Except StoreError Unit)} {reply : Api.Reply} {a : Archive}
      (hcalls : s.calls = before ++ c :: after) (hleft : c.left = .ask (.api q) resume)
      (h : s.archive.Serves q reply a) :
      Next s ((s.put a).setCalls (before ++ { c with left := resume reply } :: after))

/-- A history from one time to another. -/
abbrev Leads : Shared → Shared → Prop := ReflTransGen Next

/-- A call started from a document of the past, and it has not asked yet or is over. -/
structure Fits (c : Call) (a : Archive) : Prop where
  /-- The snapshot is of the past. -/
  past : c.snapshot ∈ a.past
  /-- Nothing of it is done, or all. -/
  whole : c.left = c.change.call c.snapshot.record ∨ ∃ result, c.left = .done result

variable {s s' : Shared} {c : Call} {a a' : Archive} {q : Api.Request} {reply : Api.Reply}
  {resume : Api.Reply → Talk (Except StoreError Unit)}

/-- What a call that has not asked yet asks, and what it does with the answer. -/
theorem Fits.of_ask (h : Fits c a) (hleft : c.left = .ask (.api q) resume) :
    q.body = some (finalizersPatch c.snapshot.record
        (c.change.edit c.snapshot.record.finalizers)) ∧
      ∀ reply, resume reply =
        .done (c.change.conclude (written (Api.judge Record.decoder reply))) := by
  obtain hcall | ⟨result, hdone⟩ := h.whole
  · rw [hleft] at hcall
    obtain ⟨result, hdone⟩ | ⟨q', hsends⟩ := c.change.cases_of_call c.snapshot.record
    · cases hcall.trans hdone
    · cases hcall.trans hsends.call
      exact ⟨hsends.body, fun _ => rfl⟩
  · cases hleft.symm.trans hdone

theorem Fits.mono (h : Fits c a) (hpast : a.past ⊆ a'.past) : Fits c a' := ⟨hpast h.past, h.whole⟩

theorem Fits.answer (h : Fits c a) (hleft : c.left = .ask (.api q) resume) (reply : Api.Reply) :
    Fits { c with left := resume reply } a :=
  ⟨h.past, .inr ⟨_, (h.of_ask hleft).2 reply⟩⟩

theorem past_subset_of_serves (h : a.Serves q reply a') : a.past ⊆ a'.past := by
  cases h with
  | missing | conflict | failed => exact fun _ => id
  | applied => exact fun _ => List.mem_cons_of_mem _

/-- All calls are as they should be. -/
def Sound (s : Shared) : Prop := ∀ c ∈ s.calls, Fits c s.archive

theorem Sound.next (hs : s.Sound) (h : s.Next s') : s'.Sound := by
  cases h with
  | write => exact fun c hc => (hs c hc).mono fun _ => List.mem_cons_of_mem _
  | remove => exact fun c hc => (hs c hc).mono fun _ => id
  | call change hpast => exact List.forall_mem_cons.2 ⟨⟨hpast, .inl rfl⟩, hs⟩
  | @answer before after c q resume reply a hcalls hleft h =>
    have hpast := past_subset_of_serves h
    have hfits : ∀ c' ∈ before ++ c :: after, Fits c' a := by
      intro c' hc'
      exact (hs c' (hcalls ▸ hc')).mono hpast
    obtain ⟨hbefore, hrest⟩ := List.forall_mem_append.1 hfits
    obtain ⟨hc, hafter⟩ := List.forall_mem_cons.1 hrest
    exact List.forall_mem_append.2
      ⟨hbefore, List.forall_mem_cons.2 ⟨hc.answer hleft reply, hafter⟩⟩

theorem sound_of_leads (h : start.Leads s) : s.Sound := by
  induction h with
  | refl => exact List.forall_mem_nil _
  | tail _ hnext ih => exact ih.next hnext

theorem Fits.error_of_judge (h : Fits c a) (hleft : c.left = .ask (.api q) resume) {e : Api.Error}
    (hjudge : Api.judge Record.decoder reply = .error e)
    (hgone : StoreError.isGone (.api e) = false) : ∃ e, resume reply = .done (.error e) := by
  refine ⟨.api e, ?_⟩
  rw [(h.of_ask hleft).2, hjudge, written]
  cases c.change with
  | add => rfl
  | remove => simp [Change.conclude, hgone]

/-- Whenever a patch of ours is applied, it was made from the record as it is stored, and
changes the list of finalizers by ours alone.  Whenever it is not, nothing is changed and
the call fails, or the record is gone and there is nothing to remove. -/
theorem update_of_leads (h : start.Leads s) (hc : c ∈ s.calls)
    (hleft : c.left = .ask (.api q) resume) (hserves : s.archive.Serves q reply a) :
    (∃ doc doc' hfresh, s.archive.stored = some doc ∧ a = s.archive.store doc' hfresh ∧
      c.snapshot = doc ∧ doc'.record.finalizers = c.change.edit doc.record.finalizers ∧
      doc'.record.finalizers.filter (· ≠ finalizer) =
        doc.record.finalizers.filter (· ≠ finalizer)) ∨
    (a = s.archive ∧ ((∃ e, resume reply = .done (.error e)) ∨
      (c.change = .remove ∧ s.archive.stored = none))) := by
  have hfits := sound_of_leads h c hc
  obtain ⟨hbody, hnext⟩ := hfits.of_ask hleft
  cases hserves with
  | missing hstored hreply =>
    refine .inr ⟨rfl, ?_⟩
    obtain ⟨e, hjudge, -⟩ := hreply.judge rfl
    cases hchange : c.change with
    | add =>
      left
      rw [hnext, hjudge, hchange]
      exact ⟨_, rfl⟩
    | remove => exact .inr ⟨rfl, hstored⟩
  | conflict _ _ _ hreply =>
    obtain ⟨e, hjudge, hgone⟩ := hreply.judge rfl
    refine .inr ⟨rfl, .inl (hfits.error_of_judge hleft hjudge (Bool.eq_false_iff.2 fun h => ?_))⟩
    cases hgone h
  | failed hreply =>
    obtain ⟨e, hjudge, hgone⟩ := hreply
    exact .inr ⟨rfl, .inl (hfits.error_of_judge hleft hjudge hgone)⟩
  | @applied patch doc doc' hstored _ hpatch hcurrent happlies hfresh =>
    have hsnapshot := Change.record_of_current hfits.past hstored hbody hcurrent
    obtain rfl := Option.some.inj (hbody.symm.trans hpatch)
    have hfinalizers : doc'.record.finalizers = c.change.edit doc.record.finalizers := by
      rw [happlies.of_finalizers.finalizers, hsnapshot]
    refine .inl ⟨doc, doc', hfresh, hstored, rfl, hsnapshot, hfinalizers, ?_⟩
    rw [hfinalizers, Change.foreign_edit]

/-- Another writer adds a finalizer while a call of ours is under way.  The call is
refused.  One that starts from what is stored then adds ours to both. -/
theorem update_of_leads_orders :
    let first := StoredRecord.orders.edited ["a"] "1"
    let second := StoredRecord.orders.edited ["a", "b"] "2"
    ∃ s, start.Leads s ∧ s.archive.stored = some second ∧
      s.calls = [.start .add second, .start .add first] ∧
      (∃ q resume reply e, (Call.start .add first).left = .ask (.api q) resume ∧
        s.archive.Serves q reply s.archive ∧ resume reply = .done (.error e)) ∧
      ∃ q resume reply a doc, (Call.start .add second).left = .ask (.api q) resume ∧
        s.archive.Serves q reply a ∧ a.stored = some doc ∧
        doc.record.finalizers = ["a", "b", finalizer] := by
  intro first second
  have hfirst : Archive.empty.Fresh first := ⟨rfl, by simp [Archive.empty]⟩
  have hsecond : (Archive.empty.store first hfirst).Fresh second :=
    ⟨rfl, show some "2" ∉ [some "1"] by decide⟩
  let s : Shared := ⟨(Archive.empty.store first hfirst).store second hsecond,
    [.start .add second, .start .add first]⟩
  have hleads : start.Leads s :=
    .tail (.tail (.tail (.single (.write hfirst)) (.call .add List.mem_cons_self))
      (.write hsecond)) (.call .add List.mem_cons_self)
  have hsound := sound_of_leads hleads
  have hstale : Call.start .add first ∈ s.calls := List.mem_cons_of_mem _ List.mem_cons_self
  have hcurrent : Call.start .add second ∈ s.calls := List.mem_cons_self
  have hasks (doc : StoredRecord) (h : doc.record.Addressable)
      (habsent : doc.record.finalizerPresent = false) :
      ∃ q resume, (Call.start .add doc).left = .ask (.api q) resume ∧ Names doc.record q.path :=
    Change.exists_ask_of_call .add h fun _ => habsent
  obtain ⟨q, resume, hask, hnames⟩ := hasks first StoredRecord.orders_addressable (by decide)
  obtain ⟨q', resume', hask', hnames'⟩ := hasks second StoredRecord.orders_addressable (by decide)
  have hbody := ((hsound _ hstale).of_ask hask).1
  have hbody' := ((hsound _ hcurrent).of_ask hask').1
  refine ⟨s, hleads, rfl, rfl, ?_, ?_⟩
  · have hrefuses : (Api.Reply.answer 409 []).Refuses 409 := by
      refine ⟨[], rfl, ?_⟩
      rintro _ ⟨⟩
      decide +kernel
    have hserves : s.archive.Serves q (.answer 409 []) s.archive :=
      .conflict rfl ((Store.names_congr rfl).1 hnames)
        ⟨_, "1", hbody, Store.versionNamed_finalizersPatch .., by decide⟩ hrefuses
    obtain ⟨doc, doc', -, hstored, -, hsnapshot, -⟩ | ⟨-, ⟨e, hfailed⟩ | ⟨hremove, -⟩⟩ :=
      update_of_leads hleads hstale hask hserves
    · obtain rfl := Option.some.inj hstored
      exact absurd (congrArg StoredRecord.version hsnapshot) (show some "1" ≠ some "2" by decide)
    · exact ⟨q, resume, _, e, hask, hserves, hfailed⟩
    · cases hremove
  · let third := second.edited ["a", "b", finalizer] "3"
    have hthird : s.archive.Fresh third := ⟨rfl, show some "3" ∉ [some "2", some "1"] by decide⟩
    have hserves : s.archive.Serves q' (.dropped "") (s.archive.store third hthird) := by
      refine .applied rfl hnames' hbody' ?_ (second.applies_edited ..) hthird
      rintro ⟨patch, version, hpatch, hnamed, hne⟩
      obtain rfl := Option.some.inj (hbody'.symm.trans hpatch)
      exact hne ((Store.versionNamed_finalizersPatch ..).symm.trans hnamed)
    obtain ⟨doc, doc', hfresh, hstored, hstore, -, hfinalizers, -⟩ | ⟨hsame, -⟩ :=
      update_of_leads hleads hcurrent hask' hserves
    · obtain rfl := Option.some.inj hstored
      exact ⟨q', resume', _, _, doc', hask', hserves, congrArg Archive.stored hstore, hfinalizers⟩
    · exact absurd (congrArg (·.stored.map StoredRecord.version) hsame)
        (show some (some "3") ≠ some (some "2") by decide)

end Shared

end Store

end ConnectorKeeper
