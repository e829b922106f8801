import ConnectorKeeper.Proofs.ServedCertificate

/-!
# Replicas agree on the certificate

Any number of replicas set up the same webhook, each at its own pace, beside an
API server that creates a secret only where there is none.  Nobody else writes the
secret or the configuration.

A secret that is stored never changes, so the certificate that a replica has once
read or stored there is that of every other one (`Setup.Stage.Sound`).  Whatever
configuration a replica puts in place trusts that certificate, and so does the one
that is stored as soon as one replica has completed (`Setup.agrees_of_leads`).
-/

namespace ConnectorKeeper

open Json (decode? valueAt)
open Program (Exchange)
open Relation (ReflTransGen)

/-- The name that a document gives itself. -/
def Json.nameGiven? (doc : Json) : Option String :=
  match valueAt (some "name") (valueAt (some "metadata") doc.members).members with
  | .string name => name
  | _ => none

theorem Secret.nameGiven_ofBundle (s : CertificateSettings) (b : CertificateBundle) :
    (ofBundle s b).nameGiven? = some s.secretName := rfl

/-- A configuration names a version, and another one has another. -/
def WebhookConfiguration.OutdatedBy (written stored : WebhookConfiguration) : Prop :=
  ∃ version, written.metadata.resourceVersion = some version ∧
    stored.metadata.resourceVersion ≠ some version

namespace Setup

/-! ## The objects -/

/-- The objects of the API server that the set-up is about, as far as they are read. -/
structure Objects where
  /-- The secret, if it exists. -/
  secret : Option Secret
  /-- The webhook's configuration, if it exists. -/
  config : Option WebhookConfiguration

namespace Objects

/-- A request is about the secret or the configuration, by its path.  One that creates a
secret is about the secret that it names. -/
inductive About (s : CertificateSettings) (q : Api.Request) : Prop
  | secret {read : Api.Request} (h : secretRequest s = .ok read) (hpath : q.path = read.path)
  | creation {v : Json} {create : Api.Request}
      (h : Api.createRequest (Secret.collection s.namespaceName) v = .ok create)
      (hpath : q.path = create.path) (hname : v.nameGiven? = some s.secretName)
      (hbody : q.body = some v)
  | config {read : Api.Request} {method : Http.Method} {body : Option Json}
      (h : configRequest s method body = .ok read) (hpath : q.path = read.path)

/-- What a replica is answered, and what becomes of the objects.  A request may fail for
any reason, and a change may take effect although its answer is lost. -/
inductive Answers (s : CertificateSettings) (o : Objects) : (q : Chore) → q.Reply → Objects → Prop
  /-- A certificate and a key are made. -/
  | made {name : String} {b : CertificateBundle} (hcertificate : b.certificate ≠ "")
      (hkey : b.key ≠ "") : Answers s o (.generate name) b o
  | directory {path : String} (r : Except FileFault Unit) : Answers s o (.makeDirectory path) r o
  | file {path : String} {file : File} (r : Except FileFault Unit) :
      Answers s o (.writeFile path file) r o
  /-- A secret that is read is the one that is stored. -/
  | secretRead {q : Api.Request} {r : Api.Reply} (hq : secretRequest s = .ok q)
      (hr : ∀ secret, Api.judge Secret.decoder r = .ok secret → o.secret = some secret) :
      Answers s o (.api q) r o
  /-- A secret is created where there was none. -/
  | created {q : Api.Request} {v : Json} {secret : Secret} (r : Api.Reply)
      (hq : Api.createRequest (Secret.collection s.namespaceName) v = .ok q)
      (hname : v.nameGiven? = some s.secretName) (habsent : o.secret = none)
      (hread : decode? Secret.decoder v = some secret) :
      Answers s o (.api q) r { o with secret := some secret }
  /-- No secret is created, as when there is one. -/
  | notCreated {q : Api.Request} {v : Json} {r : Api.Reply}
      (hq : Api.createRequest (Secret.collection s.namespaceName) v = .ok q)
      (hname : v.nameGiven? = some s.secretName)
      (hr : ∀ secret, Api.judge Secret.decoder r ≠ .ok secret) : Answers s o (.api q) r o
  /-- A configuration that is read is the one that is stored. -/
  | configRead {q : Api.Request} {r : Api.Reply} (hq : configRequest s .get none = .ok q)
      (hr : ∀ config, Api.judge WebhookConfiguration.decoder r = .ok config →
        o.config = some config) : Answers s o (.api q) r o
  /-- The configuration is replaced, unless it was read before the last change; the server
  gives the metadata. -/
  | replaced {q : Api.Request} {v : Json} {stored written : WebhookConfiguration}
      (r : Api.Reply) (metadata : Metadata) (hq : configRequest s .put (some v) = .ok q)
      (hstored : o.config = some stored)
      (hread : decode? WebhookConfiguration.decoder v = some written)
      (hcurrent : ¬ written.OutdatedBy stored) :
      Answers s o (.api q) r { o with config := some ⟨metadata, written.webhooks⟩ }
  /-- The configuration is not replaced, as when it was read before the last change. -/
  | notReplaced {q : Api.Request} {v : Json} {r : Api.Reply}
      (hq : configRequest s .put (some v) = .ok q)
      (hr : ∀ config, Api.judge WebhookConfiguration.decoder r ≠ .ok config) :
      Answers s o (.api q) r o
  /-- A request about anything else is answered in any way. -/
  | other {q : Api.Request} (r : Api.Reply) (hq : ¬ About s q) : Answers s o (.api q) r o

/-- The stored secret holds the certificate. -/
def Stores (o : Objects) (b : CertificateBundle) : Prop :=
  ∃ secret, o.secret = some secret ∧ secret.bundle = some b

/-- The stored configuration trusts the certificate for the webhook. -/
def Publishes (s : CertificateSettings) (o : Objects) (b : CertificateBundle) : Prop :=
  ∃ config, o.config = some config ∧ config.Trusts s.webhookName (Text.utf8 b.certificate)

theorem Stores.unique {o : Objects} {b b' : CertificateBundle} (h : o.Stores b)
    (h' : o.Stores b') : b = b' := by
  obtain ⟨secret, hsecret, hb⟩ := h
  obtain ⟨secret', hsecret', hb'⟩ := h'
  obtain rfl := Option.some.inj (hsecret.symm.trans hsecret')
  exact Option.some.inj (hb.symm.trans hb')

/-- What the replicas may do to the objects. -/
structure Advances (s : CertificateSettings) (o o' : Objects) : Prop where
  /-- A stored secret stays. -/
  secret : ∀ secret, o.secret = some secret → o'.secret = some secret
  /-- A new secret holds a certificate. -/
  created : ∀ secret, o.secret = none → o'.secret = some secret → ∃ b, secret.bundle = some b
  /-- The configuration stays, or trusts the stored certificate. -/
  config : o'.config = o.config ∨ ∃ b, o.Stores b ∧ o'.Publishes s b

variable {s : CertificateSettings} {o o' : Objects} {b : CertificateBundle}

theorem Advances.refl (s : CertificateSettings) (o : Objects) : o.Advances s o := by
  constructor
  case secret =>
    intro secret h
    exact h
  case created =>
    intro secret hnone hsome
    rw [hnone] at hsome
    cases hsome
  case config => exact .inl rfl

theorem Stores.advance (h : o.Stores b) (ho : o.Advances s o') : o'.Stores b := by
  obtain ⟨secret, hsecret, hb⟩ := h
  exact ⟨secret, ho.secret secret hsecret, hb⟩

theorem Publishes.advance (h : o.Publishes s b) (hb : o.Stores b) (ho : o.Advances s o') :
    o'.Publishes s b := by
  obtain heq | ⟨b', hb', h'⟩ := ho.config
  · obtain ⟨config, hconfig, htrust⟩ := h
    exact ⟨config, heq.trans hconfig, htrust⟩
  · obtain rfl := hb.unique hb'
    exact h'

/-! ## Answers by their request -/

section Answers

variable {q : Api.Request} {r : Api.Reply}

theorem Answers.of_secretRequest (h : o.Answers s (.api q) r o') (hq : secretRequest s = .ok q) :
    o' = o ∧ ∀ secret, Api.judge Secret.decoder r = .ok secret → o.secret = some secret := by
  have hmethod := method_of_secretRequest hq
  cases h with
  | secretRead _ hr => exact ⟨rfl, hr⟩
  | configRead hq' => exact absurd hq' (not_configRequest_of_secretRequest hq)
  | created _ hq' | notCreated hq' => simp [Api.method_of_createRequest hq'] at hmethod
  | replaced _ _ hq' | notReplaced hq' => simp [method_of_configRequest hq'] at hmethod
  | other _ hother => exact absurd (.secret hq rfl) hother

theorem Answers.of_creation (h : o.Answers s (.api q) r o') (hq : creation s b = .ok q) :
    (o' = o ∧ ∀ secret, Api.judge Secret.decoder r ≠ .ok secret) ∨
      ∃ secret, o.secret = none ∧ decode? Secret.decoder (Secret.ofBundle s b) = some secret ∧
        o' = { o with secret := some secret } := by
  have hmethod := method_of_creation hq
  cases h with
  | created _ hq' _ habsent hread =>
    obtain rfl := Option.some.inj ((body_of_creation hq).symm.trans (Api.body_of_createRequest hq'))
    exact .inr ⟨_, habsent, hread, rfl⟩
  | notCreated _ _ hr => exact .inl ⟨rfl, hr⟩
  | secretRead hq' => simp [method_of_secretRequest hq'] at hmethod
  | configRead hq' | replaced _ _ hq' | notReplaced hq' =>
    simp [method_of_configRequest hq'] at hmethod
  | other _ hother =>
    exact absurd (.creation hq rfl (Secret.nameGiven_ofBundle s b) (body_of_creation hq)) hother

theorem Answers.of_configRead (h : o.Answers s (.api q) r o')
    (hq : configRequest s .get none = .ok q) : o' = o ∧ ∀ config,
      Api.judge WebhookConfiguration.decoder r = .ok config → o.config = some config := by
  have hmethod := method_of_configRequest hq
  cases h with
  | configRead _ hr => exact ⟨rfl, hr⟩
  | secretRead hq' => exact absurd hq (not_configRequest_of_secretRequest hq')
  | created _ hq' | notCreated hq' => simp [Api.method_of_createRequest hq'] at hmethod
  | replaced _ _ hq' | notReplaced hq' => simp [method_of_configRequest hq'] at hmethod
  | other _ hother => exact absurd (.config hq rfl) hother

theorem Answers.of_replacement {changed : WebhookConfiguration} (h : o.Answers s (.api q) r o')
    (hq : configRequest s .put (some changed.toJson) = .ok q) :
    (o' = o ∧ ∀ config, Api.judge WebhookConfiguration.decoder r ≠ .ok config) ∨
      ∃ metadata written, decode? WebhookConfiguration.decoder changed.toJson = some written ∧
        o' = { o with config := some ⟨metadata, written.webhooks⟩ } := by
  have hmethod := method_of_configRequest hq
  cases h with
  | replaced _ metadata hq' _ hread =>
    obtain rfl := Option.some.inj
      ((body_of_configRequest hq).symm.trans (body_of_configRequest hq'))
    exact .inr ⟨metadata, _, hread, rfl⟩
  | notReplaced _ hr => exact .inl ⟨rfl, hr⟩
  | secretRead hq' => simp [method_of_secretRequest hq'] at hmethod
  | configRead hq' => simp [method_of_configRequest hq'] at hmethod
  | created _ hq' | notCreated hq' => simp [Api.method_of_createRequest hq'] at hmethod
  | other _ hother => exact absurd (.config hq rfl) hother

end Answers

end Objects

/-! ## One replica -/

/-- What the stage of a replica tells of the objects. -/
def Stage.Sound (s : CertificateSettings) (o : Objects) : Stage → Prop
  | .made b => b.certificate ≠ "" ∧ b.key ≠ ""
  | .obtained b | .prepared b | .certified b | .served b => o.Stores b
  | .found b config changed => o.Stores b ∧
      config.setCaBundle s.webhookName (Text.utf8 b.certificate) = some changed
  | .published b => o.Stores b ∧ o.Publishes s b
  | .reading _ | .absent | .failed _ => True

section Replica

variable {s : CertificateSettings} {o o' : Objects} {stage next : Stage}

theorem Stage.Sound.advance (h : stage.Sound s o) (ho : o.Advances s o') : stage.Sound s o' := by
  cases stage with
  | made b => exact h
  | obtained b | prepared b | certified b | served b => exact Objects.Stores.advance h ho
  | found b config changed => exact ⟨h.1.advance ho, h.2⟩
  | published b => exact ⟨h.1.advance ho, h.2.advance h.1 ho⟩
  | reading | absent | failed => trivial

variable {b : CertificateBundle} {r : Api.Reply}

/-- A certificate that a replica stores is read from the secret. -/
theorem advances_of_creation {q : Api.Request} (h : (Stage.made b).Sound s o)
    (hq : creation s b = .ok q) (ha : o.Answers s (.api q) r o') :
    o.Advances s o' ∧ ∀ secret, Api.judge Secret.decoder r = .ok secret → o'.Stores b := by
  obtain ⟨rfl, hfail⟩ | ⟨secret, habsent, hread, rfl⟩ := ha.of_creation hq
  · refine ⟨.refl s _, ?_⟩
    intro secret hr
    exact absurd hr (hfail secret)
  · have hb := Secret.bundle_of_ofBundle hread h.1 h.2
    refine ⟨?_, fun _ _ => ⟨secret, rfl, hb⟩⟩
    constructor
    case secret =>
      intro secret' hsecret
      rw [habsent] at hsecret
      cases hsecret
    case created =>
      rintro _ - ⟨⟩
      exact ⟨b, hb⟩
    case config => exact .inl rfl

/-- A configuration that a replica puts in place trusts the stored certificate. -/
theorem advances_of_replacement {config changed : WebhookConfiguration} {q : Api.Request}
    (h : (Stage.found b config changed).Sound s o)
    (hq : configRequest s .put (some changed.toJson) = .ok q) (ha : o.Answers s (.api q) r o') :
    o.Advances s o' ∧ ∀ accepted, Api.judge WebhookConfiguration.decoder r = .ok accepted →
      o'.Publishes s b := by
  obtain ⟨rfl, hfail⟩ | ⟨metadata, written, hread, rfl⟩ := ha.of_replacement hq
  · refine ⟨.refl s _, ?_⟩
    intro accepted hr
    exact absurd hr (hfail accepted)
  · have htrusts : written.Trusts s.webhookName (Text.utf8 b.certificate) :=
      (WebhookConfiguration.trusts_of_setCaBundle h.2).of_toJson hread
    have hpublished : Objects.Publishes s
        { o with config := some ⟨metadata, written.webhooks⟩ } b := ⟨_, rfl, htrusts⟩
    refine ⟨?_, fun _ _ => hpublished⟩
    constructor
    case secret =>
      intro secret hsecret
      exact hsecret
    case created =>
      intro secret hnone hsome
      cases hnone.symm.trans hsome
    case config => exact .inr ⟨b, h.1, hpublished⟩

/-- What an answer makes of the objects, and of the replica that is answered. -/
theorem Stage.Sound.step {q : Chore} {r : q.Reply} (h : stage.Sound s o)
    (hx : Step s stage ⟨q, r⟩ next) (ha : o.Answers s q r o') :
    o.Advances s o' ∧ next.Sound s o' := by
  cases hx with
  | read hq hr hb =>
    obtain ⟨rfl, hread⟩ := ha.of_secretRequest hq
    exact ⟨.refl s _, _, hread _ hr, hb⟩
  | incomplete hq | missing hq | unread hq =>
    obtain ⟨rfl, -⟩ := ha.of_secretRequest hq
    exact ⟨.refl s _, trivial⟩
  | make =>
    cases ha with
    | made hcertificate hkey => exact ⟨.refl s _, hcertificate, hkey⟩
  | store hq hr =>
    obtain ⟨hadvances, hstores⟩ := advances_of_creation h hq ha
    exact ⟨hadvances, hstores _ hr⟩
  | late hq | unstored hq => exact ⟨(advances_of_creation h hq ha).1, trivial⟩
  | prepare | certify | serve =>
    cases ha
    exact ⟨.refl s _, h⟩
  | unprepared | uncertified | unserved =>
    cases ha
    exact ⟨.refl s _, trivial⟩
  | find hq hr hset =>
    obtain ⟨rfl, -⟩ := ha.of_configRead hq
    exact ⟨.refl s _, h, hset⟩
  | unnamed hq | unfound hq =>
    obtain ⟨rfl, -⟩ := ha.of_configRead hq
    exact ⟨.refl s _, trivial⟩
  | publish hq hr =>
    obtain ⟨hadvances, hpublishes⟩ := advances_of_replacement h hq ha
    exact ⟨hadvances, h.1.advance hadvances, hpublishes _ hr⟩
  | unpublished hq => exact ⟨(advances_of_replacement h hq ha).1, trivial⟩

end Replica

/-! ## All replicas -/

/-- The replicas, by what each has left to do, and the objects. -/
structure Replicas where
  /-- The objects. -/
  objects : Objects
  /-- What the replicas have left. -/
  running : List (Setup CertificateBundle)

namespace Replicas

variable {s : CertificateSettings} {o : Objects} {w w' : Replicas} {b b' : CertificateBundle}

/-- What may happen next: a replica starts, or one is answered. -/
inductive Next (s : CertificateSettings) (w : Replicas) : Replicas → Prop
  | start : Next s w ⟨w.objects, bootstrap s :: w.running⟩
  | answer {before after : List (Setup CertificateBundle)} {q : Chore}
      {resume : q.Reply → Setup CertificateBundle} {r : q.Reply} {o : Objects}
      (hasks : w.running = before ++ .ask q resume :: after) (h : w.objects.Answers s q r o) :
      Next s w ⟨o, before ++ resume r :: after⟩

/-- A replica has completed with a certificate. -/
def Completed (w : Replicas) (b : CertificateBundle) : Prop := .done (.ok b) ∈ w.running

/-- Every replica is at a stage that tells the truth of the objects. -/
def Sound (s : CertificateSettings) (w : Replicas) : Prop :=
  ∀ p ∈ w.running, ∃ stage, p = left s stage ∧ stage.Sound s w.objects

theorem Sound.next (h : w.Sound s) (hnext : Next s w w') :
    w'.Sound s ∧ w.objects.Advances s w'.objects := by
  cases hnext with
  | start =>
    refine ⟨?_, .refl s _⟩
    intro p hp
    cases hp with
    | head => exact ⟨.reading true, rfl, trivial⟩
    | tail _ hp => exact h p hp
  | answer hasks ha =>
    rename_i before after q resume r o
    obtain ⟨stage, hstage, hsound⟩ := h (.ask q resume) (by simp [hasks])
    have hleft := proceeds_left (s := s) stage
    rw [← hstage] at hleft
    obtain ⟨next, hx, hresume⟩ := hleft r
    obtain ⟨hadvances, hnext⟩ := hsound.step hx ha
    refine ⟨?_, hadvances⟩
    intro p hp
    simp only [List.mem_append, List.mem_cons] at hp
    rcases hp with hp | rfl | hp
    · obtain ⟨stage', hstage', hsound'⟩ := h p (by simp [hasks, hp])
      exact ⟨stage', hstage', hsound'.advance hadvances⟩
    · exact ⟨next, hresume, hnext⟩
    · obtain ⟨stage', hstage', hsound'⟩ := h p (by simp [hasks, hp])
      exact ⟨stage', hstage', hsound'.advance hadvances⟩

theorem Sound.leads (h : w.Sound s) (hleads : ReflTransGen (Next s) w w') : w'.Sound s := by
  induction hleads with
  | refl => exact h
  | tail _ hnext ih => exact (ih.next hnext).1

/-- A replica that has completed stays so. -/
theorem Completed.leads (h : w.Completed b) (hleads : ReflTransGen (Next s) w w') :
    w'.Completed b := by
  induction hleads with
  | refl => exact h
  | tail _ hnext ih =>
    cases hnext with
    | start => exact List.mem_cons_of_mem _ ih
    | answer hasks ha =>
      unfold Completed at ih ⊢
      rw [hasks] at ih
      simp only [List.mem_append, List.mem_cons, reduceCtorEq, false_or] at ih ⊢
      exact ih.imp_right .inr

theorem Sound.completed (h : w.Sound s) (hb : w.Completed b) :
    w.objects.Stores b ∧ w.objects.Publishes s b := by
  obtain ⟨stage, hstage, hsound⟩ := h _ hb
  have hleft := proceeds_left (s := s) stage
  rw [← hstage] at hleft
  obtain ⟨_, rfl, ⟨⟩⟩ | ⟨_, -, ⟨⟩⟩ := hleft
  exact hsound

/-- A replica that is about to publish knows the stored certificate. -/
theorem Sound.exists_stores_of_put (h : w.Sound s) {q : Api.Request}
    {resume : Api.Reply → Setup CertificateBundle} (hq : .ask (.api q) resume ∈ w.running)
    (hput : q.method = .put) : ∃ b, w.objects.Stores b := by
  obtain ⟨stage, hstage, hsound⟩ := h _ hq
  have hleft := proceeds_left (s := s) stage
  rw [← hstage] at hleft
  obtain ⟨next, hx, -⟩ := hleft (.dropped "")
  obtain ⟨b, _, _, rfl, -, -⟩ := hx.of_put hput
  exact ⟨b, hsound.1⟩

/-- As long as the stored secret is incomplete, the configuration stays as it was. -/
theorem config_of_incomplete (h : w.Sound s) (hleads : ReflTransGen (Next s) w w')
    {secret : Secret} (hsecret : w'.objects.secret = some secret) (hb : secret.bundle = none) :
    w'.objects.config = w.objects.config := by
  induction hleads with
  | refl => rfl
  | tail hleads hnext ih =>
    rename_i middle last
    obtain ⟨-, hadvances⟩ := (h.leads hleads).next hnext
    have hmiddle : middle.objects.secret = some secret := by
      cases hm : middle.objects.secret with
      | none =>
        obtain ⟨b, hb'⟩ := hadvances.created secret hm hsecret
        cases hb.symm.trans hb'
      | some secret' => exact (hadvances.secret secret' hm).symm.trans hsecret
    obtain heq | ⟨b, ⟨secret', hsecret', hb'⟩, -⟩ := hadvances.config
    · exact heq.trans (ih hmiddle)
    · obtain rfl := Option.some.inj (hmiddle.symm.trans hsecret')
      cases hb.symm.trans hb'

/-- What the replicas have come to, since the objects were as at the start. -/
structure Agree (s : CertificateSettings) (start : Objects) (w : Replicas) : Prop where
  /-- All that have completed hold the certificate of the secret. -/
  stored : ∀ b, w.Completed b → ∃ secret, w.objects.secret = some secret ∧ secret.bundle = some b
  /-- So they hold the same. -/
  same : ∀ b b', w.Completed b → w.Completed b' → b = b'
  /-- Once one has completed, the webhook trusts its certificate, now and ever after. -/
  published : ∀ b, w.Completed b → ∀ later, ReflTransGen (Next s) w later →
    later.objects.Publishes s b
  /-- With an incomplete secret none completes, none publishes, and nothing is changed. -/
  incomplete : ∀ secret, w.objects.secret = some secret → secret.bundle = none →
    (∀ b, ¬ w.Completed b) ∧ w.objects.config = start.config ∧
      ∀ q resume, .ask (.api q) resume ∈ w.running → q.method ≠ .put

/-- However many replicas there are and however they take turns, they agree. -/
theorem agree_of_leads (h : ReflTransGen (Next s) ⟨o, []⟩ w) : w.Agree s o := by
  have hstart : Sound s ⟨o, []⟩ := nofun
  have hsound := hstart.leads h
  constructor
  case stored =>
    intro b hb
    exact (hsound.completed hb).1
  case same =>
    intro b b' hb hb'
    exact (hsound.completed hb).1.unique (hsound.completed hb').1
  case published =>
    intro b hb later hlater
    exact ((hsound.leads hlater).completed (hb.leads hlater)).2
  case incomplete =>
    intro secret hsecret hnone
    have hstores : ∀ b, ¬ w.objects.Stores b := by
      rintro b ⟨secret', hsecret', hb⟩
      obtain rfl := Option.some.inj (hsecret.symm.trans hsecret')
      cases hnone.symm.trans hb
    refine ⟨?_, config_of_incomplete hstart h hsecret hnone, ?_⟩
    · intro b hb
      exact hstores b (hsound.completed hb).1
    · intro q resume hq hput
      obtain ⟨b, hb⟩ := hsound.exists_stores_of_put hq hput
      exact hstores b hb

/-! ### Two replicas -/

/-- A step of one replica among others. -/
theorem Next.of_step {stage next : Stage} {q : Chore} {r : q.Reply} {o o' : Objects}
    {others : List (Setup CertificateBundle)} (hx : Step s stage ⟨q, r⟩ next)
    (ha : o.Answers s q r o') :
    Next s ⟨o, left s stage :: others⟩ ⟨o', left s next :: others⟩ := by
  obtain ⟨resume, hask, hresume⟩ := exists_left_of_step hx
  rw [hask, ← hresume]
  exact .answer (show _ = [] ++ _ :: others from rfl) ha

/-- A response of the API server. -/
def response (status : Nat) (v : Json) : Api.Reply := .answer status (.ofString (Json.print v))

/-- The certificate of a replica. -/
def madeBundle : CertificateBundle := ⟨"certificate", "key"⟩

/-- A response that tells of a configuration with one webhook. -/
def configResponse : Api.Reply :=
  response 200 (.record [("webhooks", .array [.record [("name", .text keeper.webhookName)]])])

theorem exists_config : ∃ config changed written,
    Api.judge WebhookConfiguration.decoder configResponse = .ok config ∧
      config.setCaBundle keeper.webhookName (Text.utf8 madeBundle.certificate) = some changed ∧
      decode? WebhookConfiguration.decoder changed.toJson = some written ∧
      written.metadata.resourceVersion = none := by
  have h : ((((Api.judge WebhookConfiguration.decoder configResponse).toOption.bind fun config =>
      config.setCaBundle keeper.webhookName (Text.utf8 madeBundle.certificate)).bind fun changed =>
        decode? WebhookConfiguration.decoder changed.toJson).map
          fun written => written.metadata.resourceVersion) = some none := by
    decide +kernel
  obtain ⟨written, hwritten, hversion⟩ := Option.map_eq_some_iff.1 h
  obtain ⟨changed, hchanged, hread⟩ := Option.bind_eq_some_iff.1 hwritten
  obtain ⟨config, hconfig, hset⟩ := Option.bind_eq_some_iff.1 hchanged
  refine ⟨config, changed, written, ?_, hset, hread, hversion⟩
  cases hjudge : Api.judge WebhookConfiguration.decoder configResponse with
  | error e =>
    rw [hjudge] at hconfig
    cases hconfig
  | ok config' =>
    rw [hjudge] at hconfig
    exact congrArg _ (Option.some.inj hconfig)

/-- What the API server says where there is no such object. -/
def missingStatus : Json :=
  .record [("status", .text "Failure"), ("reason", .text "NotFound"), ("code", .int 404)]

theorem judge_missingStatus {α : Type} (decoder : Json.Decoder α) :
    Api.judge decoder (response 404 missingStatus) =
      .error (.api (Api.describeError 404 (Json.print missingStatus))) := by
  rw [response, Api.judge, Text.ByteText.strict_ofString]
  exact if_pos (by decide)

theorem isMissing_missingStatus :
    IsMissing (.api (Api.describeError 404 (Json.print missingStatus))) :=
  ⟨_, rfl, by decide +kernel⟩

/-- One replica creates the secret and completes; another one has just started. -/
theorem agree_of_leads_two : ∃ (config : WebhookConfiguration) (w : Replicas),
    ReflTransGen (Next keeper) ⟨⟨none, some config⟩, []⟩ w ∧ w.running.length = 2 ∧
      w.Completed madeBundle ∧ w.Agree keeper ⟨none, some config⟩ := by
  obtain ⟨config, changed, written, hconfig, hset, hwritten, hversion⟩ := exists_config
  obtain ⟨secret, hsecret⟩ : ∃ secret,
      decode? Secret.decoder (Secret.ofBundle keeper madeBundle) = some secret :=
    Option.isSome_iff_exists.1 (by decide +kernel)
  have hmissing := judge_missingStatus Secret.decoder
  have hstored : Api.judge Secret.decoder (response 201 (.record [])) = .ok ⟨none⟩ := rfl
  have haccepted : Api.judge WebhookConfiguration.decoder (response 200 (.record [])) =
      .ok ⟨.empty, none⟩ := rfl
  have hleads : ReflTransGen (Next keeper) ⟨⟨none, some config⟩, []⟩
      ⟨⟨some secret, some ⟨.empty, written.webhooks⟩⟩,
        [left keeper (.published madeBundle), bootstrap keeper]⟩ := by
    refine .head .start (.head .start ?_)
    refine .head (.of_step (.missing rfl hmissing isMissing_missingStatus) (.secretRead rfl ?_)) ?_
    · intro secret hread
      cases hmissing.symm.trans hread
    refine .head (.of_step (.make (b := madeBundle) rfl) (.made (by decide) (by decide))) ?_
    refine .head (.of_step (.store rfl hstored) (.created _ rfl rfl rfl hsecret)) ?_
    refine .head (.of_step .prepare (.directory _)) ?_
    refine .head (.of_step .certify (.file _)) ?_
    refine .head (.of_step .serve (.file _)) ?_
    refine .head (.of_step (.find rfl hconfig hset) (.configRead rfl ?_)) ?_
    · intro config' hread
      exact congrArg _ (Except.ok.inj (hconfig.symm.trans hread))
    refine .single (.of_step (.publish rfl haccepted) (.replaced _ .empty rfl rfl hwritten ?_))
    rintro ⟨version, hnamed, -⟩
    cases hversion.symm.trans hnamed
  exact ⟨config, _, hleads, rfl, List.mem_cons_self, agree_of_leads hleads⟩

end Replicas

end Setup

end ConnectorKeeper
