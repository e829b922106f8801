import ConnectorKeeper.Certificate.Bootstrap
import ConnectorKeeper.Proofs.Exchanges
import ConnectorKeeper.Proofs.Targets

/-!
# The stages of the set-up

The set-up goes from stage to stage, one exchange at a time (`Setup.Step`), and
ends at `published` or `failed`.  A step that cannot be taken because its request
cannot be built, or no certificate can be made for the name, fails without any
exchange (`Setup.Unsent`).

What is left to do at a stage is a program (`Setup.left`), and each answer to it
is a step to what is left at the next stage (`Setup.proceeds_left`).  So a run is
a walk through the stages (`Setup.reaches_of_trace`), and what holds of a run is
shown by what a step preserves.
-/

namespace ConnectorKeeper.Setup

open Program (Exchange)

/-! ## One exchange at a time -/

/-- An exchange with the API server. -/
abbrev sent (q : Api.Request) (r : Api.Reply) : Exchange Chore.Reply := ⟨.api q, r⟩

/-- How far the set-up has come. -/
inductive Stage where
  /-- The secret is to be read, for the first time or because another replica stored it. -/
  | reading (first : Bool)
  /-- There is no secret. -/
  | absent
  /-- A certificate is made, and to be stored. -/
  | made (b : CertificateBundle)
  /-- The certificate is known. -/
  | obtained (b : CertificateBundle)
  /-- The directory of the files is there. -/
  | prepared (b : CertificateBundle)
  /-- The certificate's file is written. -/
  | certified (b : CertificateBundle)
  /-- Both files are written. -/
  | served (b : CertificateBundle)
  /-- The webhook is found, in the configuration that is to be replaced by another one. -/
  | found (b : CertificateBundle) (config changed : WebhookConfiguration)
  /-- The certificate is published. -/
  | published (b : CertificateBundle)
  /-- A step failed. -/
  | failed (e : SetupError)

/-- The request that stores a certificate. -/
def creation (s : CertificateSettings) (b : CertificateBundle) : Except Api.Error Api.Request :=
  Api.createRequest (Secret.collection s.namespaceName) (Secret.ofBundle s b)

/-- A request for the webhook's configuration. -/
def configRequest (s : CertificateSettings) (method : Http.Method) (body : Option Json) :
    Except Api.Error Api.Request :=
  Api.objectRequest method WebhookConfiguration.collection s.webhookConfigName "" "" body

/-- The API server says that there is no such object. -/
def IsMissing (e : Api.Error) : Prop := ∃ response, e = .api response ∧ response.reason = "NotFound"

/-- The API server says that there is such an object already. -/
def IsConflict (e : Api.Error) : Prop := ∃ response, e = .api response ∧ response.code = 409

/-- What an exchange makes of a stage. -/
inductive Step (s : CertificateSettings) : Stage → Exchange Chore.Reply → Stage → Prop
  | read {first : Bool} {q : Api.Request} {r : Api.Reply} {secret : Secret} {b : CertificateBundle}
      (hq : secretRequest s = .ok q) (hr : Api.judge Secret.decoder r = .ok secret)
      (hb : secret.bundle = some b) : Step s (.reading first) (sent q r) (.obtained b)
  | incomplete {first : Bool} {q : Api.Request} {r : Api.Reply} {secret : Secret}
      (hq : secretRequest s = .ok q) (hr : Api.judge Secret.decoder r = .ok secret)
      (hb : secret.bundle = none) :
      Step s (.reading first) (sent q r) (.failed (.incompleteSecret s.secretName))
  | missing {q : Api.Request} {r : Api.Reply} {e : Api.Error}
      (hq : secretRequest s = .ok q) (hr : Api.judge Secret.decoder r = .error e)
      (he : IsMissing e) : Step s (.reading true) (sent q r) .absent
  | unread {first : Bool} {q : Api.Request} {r : Api.Reply} {e : Api.Error}
      (hq : secretRequest s = .ok q) (hr : Api.judge Secret.decoder r = .error e)
      (he : first = true → ¬ IsMissing e) : Step s (.reading first) (sent q r) (.failed (.api e))
  | make {b : CertificateBundle} (hname : nameable s.commonName = true) :
      Step s .absent ⟨.generate s.commonName, b⟩ (.made b)
  | store {b : CertificateBundle} {q : Api.Request} {r : Api.Reply} {secret : Secret}
      (hq : creation s b = .ok q) (hr : Api.judge Secret.decoder r = .ok secret) :
      Step s (.made b) (sent q r) (.obtained b)
  | late {b : CertificateBundle} {q : Api.Request} {r : Api.Reply} {e : Api.Error}
      (hq : creation s b = .ok q) (hr : Api.judge Secret.decoder r = .error e)
      (he : IsConflict e) : Step s (.made b) (sent q r) (.reading false)
  | unstored {b : CertificateBundle} {q : Api.Request} {r : Api.Reply} {e : Api.Error}
      (hq : creation s b = .ok q) (hr : Api.judge Secret.decoder r = .error e)
      (he : ¬ IsConflict e) : Step s (.made b) (sent q r) (.failed (.api e))
  | prepare {b : CertificateBundle} :
      Step s (.obtained b) ⟨.makeDirectory s.directory, .ok ()⟩ (.prepared b)
  | unprepared {b : CertificateBundle} {fault : FileFault} :
      Step s (.obtained b) ⟨.makeDirectory s.directory, .error fault⟩
        (.failed (.file s.directory fault))
  | certify {b : CertificateBundle} :
      Step s (.prepared b) ⟨.writeFile s.certificatePath ⟨b.certificate, false⟩, .ok ()⟩
        (.certified b)
  | uncertified {b : CertificateBundle} {fault : FileFault} :
      Step s (.prepared b) ⟨.writeFile s.certificatePath ⟨b.certificate, false⟩, .error fault⟩
        (.failed (.file s.certificatePath fault))
  | serve {b : CertificateBundle} :
      Step s (.certified b) ⟨.writeFile s.keyPath ⟨b.key, true⟩, .ok ()⟩ (.served b)
  | unserved {b : CertificateBundle} {fault : FileFault} :
      Step s (.certified b) ⟨.writeFile s.keyPath ⟨b.key, true⟩, .error fault⟩
        (.failed (.file s.keyPath fault))
  | find {b : CertificateBundle} {q : Api.Request} {r : Api.Reply}
      {config changed : WebhookConfiguration} (hq : configRequest s .get none = .ok q)
      (hr : Api.judge WebhookConfiguration.decoder r = .ok config)
      (hset : config.setCaBundle s.webhookName (Text.utf8 b.certificate) = some changed) :
      Step s (.served b) (sent q r) (.found b config changed)
  | unnamed {b : CertificateBundle} {q : Api.Request} {r : Api.Reply}
      {config : WebhookConfiguration} (hq : configRequest s .get none = .ok q)
      (hr : Api.judge WebhookConfiguration.decoder r = .ok config)
      (hset : config.setCaBundle s.webhookName (Text.utf8 b.certificate) = none) :
      Step s (.served b) (sent q r)
        (.failed (.webhookNotFound s.webhookName s.webhookConfigName))
  | unfound {b : CertificateBundle} {q : Api.Request} {r : Api.Reply} {e : Api.Error}
      (hq : configRequest s .get none = .ok q)
      (hr : Api.judge WebhookConfiguration.decoder r = .error e) :
      Step s (.served b) (sent q r) (.failed (.api e))
  | publish {b : CertificateBundle} {q : Api.Request} {r : Api.Reply}
      {config changed accepted : WebhookConfiguration}
      (hq : configRequest s .put (some changed.toJson) = .ok q)
      (hr : Api.judge WebhookConfiguration.decoder r = .ok accepted) :
      Step s (.found b config changed) (sent q r) (.published b)
  | unpublished {b : CertificateBundle} {q : Api.Request} {r : Api.Reply}
      {config changed : WebhookConfiguration} {e : Api.Error}
      (hq : configRequest s .put (some changed.toJson) = .ok q)
      (hr : Api.judge WebhookConfiguration.decoder r = .error e) :
      Step s (.found b config changed) (sent q r) (.failed (.api e))

/-- The error of a step that fails before anything is exchanged. -/
inductive Unsent (s : CertificateSettings) : Stage → SetupError → Prop
  | read {first : Bool} {e : Api.Error} (h : secretRequest s = .error e) :
      Unsent s (.reading first) (.api e)
  | make (h : nameable s.commonName = false) : Unsent s .absent .generate
  | store {b : CertificateBundle} {e : Api.Error} (h : creation s b = .error e) :
      Unsent s (.made b) (.api e)
  | find {b : CertificateBundle} {e : Api.Error} (h : configRequest s .get none = .error e) :
      Unsent s (.served b) (.api e)
  | publish {b : CertificateBundle} {config changed : WebhookConfiguration} {e : Api.Error}
      (h : configRequest s .put (some changed.toJson) = .error e) :
      Unsent s (.found b config changed) (.api e)

/-- The exchanges lead the set-up to the stage. -/
inductive Reaches (s : CertificateSettings) : List (Exchange Chore.Reply) → Stage → Prop
  | start : Reaches s [] (.reading true)
  | step {past : List (Exchange Chore.Reply)} {x : Exchange Chore.Reply} {stage next : Stage}
      (h : Reaches s past stage) (hx : Step s stage x next) : Reaches s (past ++ [x]) next

/-- The set-up comes through the exchanges, and a step fails: the last of them, or one
without an exchange. -/
def Fails (s : CertificateSettings) (past : List (Exchange Chore.Reply)) (e : SetupError) : Prop :=
  ∃ stage, Reaches s past stage ∧ (stage = .failed e ∨ Unsent s stage e)

/-! ## Requests

A request tells which step it belongs to: by its method, and by the beginning of
its path. -/

section Requests

variable {s : CertificateSettings} {q : Api.Request} {b : CertificateBundle}
  {method : Http.Method} {body : Option Json}

theorem method_of_secretRequest (h : secretRequest s = .ok q) : q.method = .get :=
  Api.method_of_objectRequest h

theorem method_of_creation (h : creation s b = .ok q) : q.method = .post :=
  Api.method_of_createRequest h

theorem method_of_configRequest (h : configRequest s method body = .ok q) : q.method = method :=
  Api.method_of_objectRequest h

theorem body_of_creation (h : creation s b = .ok q) : q.body = some (Secret.ofBundle s b) :=
  Api.body_of_createRequest h

theorem body_of_configRequest (h : configRequest s method body = .ok q) : q.body = body :=
  Api.body_of_objectRequest h

theorem isPrefix_toList_append (a b : String) : a.toList <+: (a ++ b).toList := by
  rw [String.toList_append]
  exact List.prefix_append ..

/-- The secret is below its namespace. -/
theorem path_of_secretRequest (h : secretRequest s = .ok q) :
    "/api/v1/namespaces/".toList <+: q.path.toList := by
  obtain ⟨-, target, htarget, rfl⟩ := Api.objectRequest_eq_ok_iff.1 h
  have hcollection : Secret.collection s.namespaceName =
      "/api/v1/namespaces/" ++ (s.namespaceName ++ "/secrets") := String.append_assoc
  simp only [hcollection, String.append_assoc] at htarget
  exact Api.isPrefix_path_of_splitTarget (by decide) (isPrefix_toList_append ..) htarget

theorem path_of_configRequest (h : configRequest s method body = .ok q) :
    WebhookConfiguration.collection.toList <+: q.path.toList := by
  obtain ⟨-, target, htarget, rfl⟩ := Api.objectRequest_eq_ok_iff.1 h
  simp only [String.append_assoc] at htarget
  exact Api.isPrefix_path_of_splitTarget (by decide) (isPrefix_toList_append ..) htarget

/-- The secret and the configuration are different objects. -/
theorem not_configRequest_of_secretRequest (h : secretRequest s = .ok q) :
    configRequest s method body ≠ .ok q := by
  intro h'
  have hprefix := List.prefix_or_prefix_of_prefix (path_of_secretRequest h)
    (path_of_configRequest h')
  exact absurd hprefix (by decide)

end Requests

/-! ## What is left -/

section AndThen

variable {α β γ : Type}

@[simp] theorem done_ok_andThen (a : α) (next : α → Setup β) :
    andThen (.done (.ok a)) next = next a := rfl

@[simp] theorem done_error_andThen (e : SetupError) (next : α → Setup β) :
    andThen (.done (.error e)) next = .done (.error e) := rfl

@[simp] theorem ask_andThen (q : Chore) (first : q.Reply → Setup α) (next : α → Setup β) :
    andThen (.ask q first) next = .ask q fun r => (first r).andThen next := rfl

/-- Steps of a setup can be grouped in any way. -/
theorem andThen_assoc (first : Setup α) (second : α → Setup β) (third : β → Setup γ) :
    (first.andThen second).andThen third = first.andThen fun a => (second a).andThen third := by
  induction first with
  | done result => cases result <;> rfl
  | ask q next ih =>
    simp only [ask_andThen]
    exact congrArg (Program.ask q) (funext ih)

/-- An exchange goes on to what follows it. -/
theorem exchange_andThen (decoder : Json.Decoder γ) (request : Except Api.Error Api.Request)
    (first : Except Api.Error γ → Setup α) (next : α → Setup β) :
    (exchange decoder request first).andThen next =
      exchange decoder request fun outcome => (first outcome).andThen next := by
  cases request <;> rfl

end AndThen

variable (s : CertificateSettings)

/-- Puts the changed configuration in the place of the one that was read. -/
def replace (changed : WebhookConfiguration) : Setup Unit :=
  exchange WebhookConfiguration.decoder (configRequest s .put (some changed.toJson)) fun
    | .ok _ => .done (.ok ())
    | .error e => .done (.error (.api e))

/-- Publishes a certificate, as the last part of the set-up. -/
def announce (b : CertificateBundle) : Setup CertificateBundle :=
  (publish s (Text.utf8 b.certificate)).andThen fun _ => .done (.ok b)

/-- Writes the files of a certificate and publishes it. -/
def serve (b : CertificateBundle) : Setup CertificateBundle :=
  (writeFiles s b).andThen fun _ => announce s b

/-- Stores a certificate, unless another replica was faster. -/
def store (made : CertificateBundle) : Setup CertificateBundle :=
  exchange Secret.decoder (creation s made) fun
    | .ok _ => .done (.ok made)
    | .error (.api e) => if e.code = 409 then reload s else .done (.error (.api (.api e)))
    | .error e => .done (.error (.api e))

/-- What is left of the set-up at a stage. -/
def left : Stage → Setup CertificateBundle
  | .reading true => bootstrap s
  | .reading false => (reload s).andThen (serve s)
  | .absent => (generate s).andThen (serve s)
  | .made b => (store s b).andThen (serve s)
  | .obtained b => serve s b
  | .prepared b =>
      ((writeFile s.certificatePath ⟨b.certificate, false⟩).andThen fun _ =>
        writeFile s.keyPath ⟨b.key, true⟩).andThen fun _ => announce s b
  | .certified b => (writeFile s.keyPath ⟨b.key, true⟩).andThen fun _ => announce s b
  | .served b => announce s b
  | .found b _ changed => (replace s changed).andThen fun _ => .done (.ok b)
  | .published b => .done (.ok b)
  | .failed e => .done (.error e)

/-- A bootstrap comes to a shared certificate, and then serves it. -/
theorem bootstrap_eq : bootstrap s = (shared s).andThen (serve s) := by
  rw [bootstrap, load, andThen_assoc]
  refine congrArg _ (funext fun b => ?_)
  rw [andThen_assoc]
  rfl

/-- A program goes on from a stage as the stages do. -/
def Proceeds (stage : Stage) : Setup CertificateBundle → Prop
  | .done result =>
      (∃ b, stage = .published b ∧ result = .ok b) ∨
        ∃ e, (stage = .failed e ∨ Unsent s stage e) ∧ result = .error e
  | .ask q next => ∀ r, ∃ stage', Step s stage ⟨q, r⟩ stage' ∧ next r = left s stage'

variable {s}

theorem Proceeds.unsent {stage : Stage} {e : SetupError} (h : Unsent s stage e) :
    Proceeds s stage (.done (.error e)) := .inr ⟨e, .inr h, rfl⟩

/-- An exchange that may fail to be built, or be answered in any way. -/
theorem proceeds_exchange {α : Type} {stage : Stage} {decoder : Json.Decoder α}
    {request : Except Api.Error Api.Request}
    {next : Except Api.Error α → Setup CertificateBundle}
    (hunsent : ∀ e, request = .error e → Unsent s stage (.api e) ∧
      next (.error e) = .done (.error (.api e)))
    (hsent : ∀ q, request = .ok q → ∀ r, ∃ stage', Step s stage (sent q r) stage' ∧
      next (Api.judge decoder r) = left s stage') :
    Proceeds s stage (exchange decoder request next) := by
  cases request with
  | error e =>
    obtain ⟨he, hnext⟩ := hunsent e rfl
    rw [exchange, hnext]
    exact .unsent he
  | ok q => exact hsent q rfl

theorem not_isMissing_of_buildRequest {cause : String} : ¬ IsMissing (.buildRequest cause) := by
  rintro ⟨_, h, -⟩
  cases h

/-- A secret that is read, and what follows if that failed. -/
theorem proceeds_reading {first : Bool}
    {next : Except Api.Error Secret → Setup CertificateBundle}
    (hok : ∀ secret, next (.ok secret) = (bundleOf s secret).andThen (serve s))
    (hmissing : first = true → ∀ e, IsMissing e → next (.error e) = left s .absent)
    (herror : ∀ e, (first = true → ¬ IsMissing e) → next (.error e) = .done (.error (.api e))) :
    Proceeds s (.reading first) (exchange Secret.decoder (secretRequest s) next) := by
  refine proceeds_exchange ?_ ?_
  · intro e he
    obtain ⟨cause, rfl⟩ := Api.exists_cause_of_objectRequest he
    exact ⟨.read he, herror _ fun _ => not_isMissing_of_buildRequest⟩
  · intro q hq r
    cases hr : Api.judge Secret.decoder r with
    | ok secret =>
      rw [hok, bundleOf]
      cases hb : secret.bundle with
      | none => exact ⟨_, .incomplete hq hr hb, rfl⟩
      | some b => exact ⟨_, .read hq hr hb, rfl⟩
    | error e =>
      by_cases he : first = true ∧ IsMissing e
      · obtain ⟨rfl, he⟩ := he
        exact ⟨_, .missing hq hr he, hmissing rfl e he⟩
      · have he' : first = true → ¬ IsMissing e := not_and.1 he
        exact ⟨_, .unread hq hr he', herror e he'⟩

/-- A bootstrap goes from stage to stage. -/
theorem proceeds_bootstrap : Proceeds s (.reading true) (bootstrap s) := by
  rw [bootstrap_eq, shared, exchange_andThen]
  refine proceeds_reading ?_ ?_ ?_
  · intro secret
    rfl
  · rintro - e ⟨response, rfl, hreason⟩
    simp only [if_pos hreason]
    rfl
  · intro e he
    cases e with
    | api response =>
      have hreason : response.reason ≠ "NotFound" := fun h => he rfl ⟨response, rfl, h⟩
      simp only [if_neg hreason]
      rfl
    | service cause => rfl
    | decode => rfl
    | buildRequest cause => rfl

theorem proceeds_reload : Proceeds s (.reading false) ((reload s).andThen (serve s)) := by
  rw [reload, exchange_andThen]
  refine proceeds_reading ?_ ?_ ?_
  · intro secret
    rfl
  · intro h
    cases h
  · intro e _
    rfl

theorem proceeds_generate : Proceeds s .absent ((generate s).andThen (serve s)) := by
  unfold generate
  split
  · next hname =>
    intro b
    exact ⟨_, .make hname, rfl⟩
  · next hname => exact .unsent (.make (by simpa using hname))

/-- A certificate that was made is offered to all replicas. -/
theorem proceeds_store (b : CertificateBundle) :
    Proceeds s (.made b) ((store s b).andThen (serve s)) := by
  rw [store, exchange_andThen]
  refine proceeds_exchange ?_ ?_
  · intro e he
    obtain ⟨target, htarget⟩ := Api.exists_cause_of_splitTarget (Api.map_eq_error_iff.1 he)
    subst htarget
    exact ⟨.store he, rfl⟩
  · intro q hq r
    cases hr : Api.judge Secret.decoder r with
    | ok secret => exact ⟨_, .store hq hr, rfl⟩
    | error e =>
      by_cases he : IsConflict e
      · refine ⟨_, .late hq hr he, ?_⟩
        obtain ⟨response, rfl, hcode⟩ := he
        simp only [if_pos hcode]
        rfl
      · refine ⟨_, .unstored hq hr he, ?_⟩
        cases e with
        | api response =>
          have hcode : response.code ≠ 409 := fun h => he ⟨response, rfl, h⟩
          simp only [if_neg hcode]
          rfl
        | service cause => rfl
        | decode => rfl
        | buildRequest cause => rfl

/-- A certificate that is served is announced. -/
theorem proceeds_announce (b : CertificateBundle) : Proceeds s (.served b) (announce s b) := by
  rw [announce, publish, exchange_andThen]
  refine proceeds_exchange ?_ ?_
  · intro e he
    exact ⟨.find he, rfl⟩
  · intro q hq r
    cases hr : Api.judge WebhookConfiguration.decoder r with
    | error e => exact ⟨_, .unfound hq hr, rfl⟩
    | ok config =>
      cases hset : config.setCaBundle s.webhookName (Text.utf8 b.certificate) with
      | none =>
        refine ⟨_, .unnamed hq hr hset, ?_⟩
        simp only [hset]
        rfl
      | some changed =>
        refine ⟨_, .find hq hr hset, ?_⟩
        simp only [hset]
        rfl

theorem proceeds_replace (b : CertificateBundle) (config changed : WebhookConfiguration) :
    Proceeds s (.found b config changed) ((replace s changed).andThen fun _ => .done (.ok b)) := by
  rw [replace, exchange_andThen]
  refine proceeds_exchange ?_ ?_
  · intro e he
    exact ⟨.publish he, rfl⟩
  · intro q hq r
    cases hr : Api.judge WebhookConfiguration.decoder r with
    | ok accepted => exact ⟨_, .publish hq hr, rfl⟩
    | error e => exact ⟨_, .unpublished hq hr, rfl⟩

/-- At each stage, each answer to what is left is a step of the stages. -/
theorem proceeds_left (stage : Stage) : Proceeds s stage (left s stage) := by
  cases stage with
  | reading first =>
    cases first with
    | true => exact proceeds_bootstrap
    | false => exact proceeds_reload
  | absent => exact proceeds_generate
  | made b => exact proceeds_store b
  | obtained b =>
    intro r
    cases r with
    | ok done => exact ⟨_, .prepare, rfl⟩
    | error fault => exact ⟨_, .unprepared, rfl⟩
  | prepared b =>
    intro r
    cases r with
    | ok done => exact ⟨_, .certify, rfl⟩
    | error fault => exact ⟨_, .uncertified, rfl⟩
  | certified b =>
    intro r
    cases r with
    | ok done => exact ⟨_, .serve, rfl⟩
    | error fault => exact ⟨_, .unserved, rfl⟩
  | served b => exact proceeds_announce b
  | found b config changed => exact proceeds_replace b config changed
  | published b => exact .inl ⟨b, rfl, rfl⟩
  | failed e => exact .inr ⟨e, .inl rfl, rfl⟩

/-! ## Runs -/

/-- An exchange leaves one way to go on. -/
theorem Step.unique {stage a b : Stage} {x : Exchange Chore.Reply} (ha : Step s stage x a)
    (hb : Step s stage x b) : a = b := by
  cases ha <;> cases hb <;> simp_all

/-- A stage whose request cannot be built has one error. -/
theorem Unsent.unique {stage : Stage} {a b : SetupError} (ha : Unsent s stage a)
    (hb : Unsent s stage b) : a = b := by
  cases ha <;> cases hb <;> simp_all

/-- A step that fails before its exchange has none. -/
theorem Unsent.not_step {stage next : Stage} {e : SetupError} {x : Exchange Chore.Reply}
    (he : Unsent s stage e) : ¬ Step s stage x next := by
  intro hx
  cases he <;> cases hx <;> simp_all


/-- Nothing follows the last step. -/
theorem Step.not_from_published {b : CertificateBundle} {x : Exchange Chore.Reply}
    {next : Stage} : ¬ Step s (.published b) x next := nofun

theorem Step.not_from_failed {next : Stage} {e : SetupError} {x : Exchange Chore.Reply} :
    ¬ Step s (.failed e) x next := nofun

/-- A stage asks one question. -/
theorem Step.chore_unique {stage a b : Stage} {q q' : Chore} {r : q.Reply} {r' : q'.Reply}
    (ha : Step s stage ⟨q, r⟩ a) (hb : Step s stage ⟨q', r'⟩ b) : q = q' := by
  cases ha <;> cases hb <;> simp_all

theorem exists_reply (q : Chore) : Nonempty q.Reply := by
  cases q with
  | api => exact ⟨Api.Reply.dropped ""⟩
  | generate => exact ⟨CertificateBundle.mk "" ""⟩
  | makeDirectory | writeFile => exact ⟨Except.ok ()⟩

/-- Each step of the stages is one of what is left. -/
theorem exists_left_of_step {stage next : Stage} {q : Chore} {r : q.Reply}
    (hx : Step s stage ⟨q, r⟩ next) : ∃ resume, left s stage = .ask q resume ∧
      resume r = left s next := by
  have hleft := proceeds_left (s := s) stage
  cases hp : left s stage with
  | done result =>
    rw [hp] at hleft
    exfalso
    obtain ⟨b, rfl, -⟩ | ⟨e, rfl | he, -⟩ := hleft
    · exact Step.not_from_published hx
    · exact Step.not_from_failed hx
    · exact he.not_step hx
  | ask q' resume =>
    rw [hp] at hleft
    obtain ⟨r'⟩ := exists_reply q'
    obtain ⟨_, hx', -⟩ := hleft r'
    obtain rfl := hx.chore_unique hx'
    obtain ⟨next', hx'', hresume⟩ := hleft r
    obtain rfl := hx.unique hx''
    exact ⟨resume, rfl, hresume⟩

/-- A replacement is the last step before the end. -/
theorem Step.of_put {q : Api.Request} {r : Api.Reply} {stage next : Stage}
    (hx : Step s stage (sent q r) next) (hq : q.method = .put) :
    ∃ b config changed, stage = .found b config changed ∧
      configRequest s .put (some changed.toJson) = .ok q ∧
        ((next = .published b) ∨ ∃ e, next = .failed e) := by
  have hget {q' : Api.Request} (h : q'.method = .get) : q'.method ≠ .put := by simp [h]
  cases hx with
  | publish hq hr => exact ⟨_, _, _, rfl, hq, .inl rfl⟩
  | unpublished hq hr => exact ⟨_, _, _, rfl, hq, .inr ⟨_, rfl⟩⟩
  | read hq' | incomplete hq' | missing hq' | unread hq' =>
    exact absurd hq (hget (method_of_secretRequest hq'))
  | find hq' | unnamed hq' | unfound hq' => exact absurd hq (hget (method_of_configRequest hq'))
  | store hq' | late hq' | unstored hq' => simp [method_of_creation hq'] at hq

/-- A configuration that is read is the one to be changed. -/
theorem Step.of_configRead {q : Api.Request} {r : Api.Reply} {stage next : Stage}
    (hx : Step s stage (sent q r) next) (hq : configRequest s .get none = .ok q) :
    ∃ b, stage = .served b := by
  cases hx with
  | find | unnamed | unfound => exact ⟨_, rfl⟩
  | read hq' | incomplete hq' | missing hq' | unread hq' =>
    exact absurd hq (not_configRequest_of_secretRequest hq')
  | store hq' | late hq' | unstored hq' =>
    have hmethod := (method_of_creation hq').symm.trans (method_of_configRequest hq)
    cases hmethod
  | publish hq' | unpublished hq' =>
    have hmethod := (method_of_configRequest hq').symm.trans (method_of_configRequest hq)
    cases hmethod

theorem reaches_nil_iff {stage : Stage} : Reaches s [] stage ↔ stage = .reading true := by
  constructor
  · intro h
    generalize hpast : [] = past at h
    cases h with
    | start => rfl
    | step h hx => simp at hpast
  · rintro rfl
    exact .start

/-- A stage is reached by a step from the one before. -/
theorem reaches_concat_iff {past : List (Exchange Chore.Reply)} {x : Exchange Chore.Reply}
    {next : Stage} :
    Reaches s (past ++ [x]) next ↔ ∃ stage, Reaches s past stage ∧ Step s stage x next := by
  constructor
  · intro h
    generalize hpast : past ++ [x] = w at h
    cases h with
    | start => simp at hpast
    | step h hx =>
      obtain ⟨rfl, hlast⟩ := List.append_inj' hpast rfl
      obtain rfl := List.singleton_inj.1 hlast
      exact ⟨_, h, hx⟩
  · rintro ⟨stage, h, hx⟩
    exact h.step hx

/-- Exchanges lead to one stage at most. -/
theorem Reaches.unique {past : List (Exchange Chore.Reply)} {a b : Stage} (ha : Reaches s past a)
    (hb : Reaches s past b) : a = b := by
  induction ha generalizing b with
  | start => exact (reaches_nil_iff.1 hb).symm
  | step _ hx ih =>
    obtain ⟨stage, h, hx'⟩ := reaches_concat_iff.1 hb
    obtain rfl := ih h
    exact hx.unique hx'

/-- Each exchange on the way to a stage is a step. -/
theorem Reaches.step_of_split {before after : List (Exchange Chore.Reply)}
    {x : Exchange Chore.Reply} {last : Stage} (h : Reaches s (before ++ x :: after) last) :
    ∃ stage next, Reaches s before stage ∧ Step s stage x next := by
  induction after using List.reverseRecOn generalizing last with
  | nil =>
    obtain ⟨stage, hstage, hx⟩ := reaches_concat_iff.1 h
    exact ⟨stage, last, hstage, hx⟩
  | append_singleton after y ih =>
    rw [← List.cons_append, ← List.append_assoc] at h
    obtain ⟨stage, hstage, -⟩ := reaches_concat_iff.1 h
    exact ih hstage

/-- Nothing follows a step that failed. -/
theorem Fails.eq_nil {before after : List (Exchange Chore.Reply)} {e : SetupError} {last : Stage}
    (he : Fails s before e) (h : Reaches s (before ++ after) last) : after = [] := by
  cases after with
  | nil => rfl
  | cons x after =>
    exfalso
    obtain ⟨stage, next, hstage, hx⟩ := h.step_of_split
    obtain ⟨stage', hstage', hfail⟩ := he
    obtain rfl := hstage.unique hstage'
    obtain rfl | hunsent := hfail
    · exact Step.not_from_failed hx
    · exact hunsent.not_step hx

/-- A setup fails with one error. -/
theorem Fails.unique {past : List (Exchange Chore.Reply)} {e e' : SetupError}
    (he : Fails s past e) (he' : Fails s past e') : e = e' := by
  obtain ⟨stage, hstage, h⟩ := he
  obtain ⟨stage', hstage', h'⟩ := he'
  obtain rfl := hstage.unique hstage'
  obtain rfl | hunsent := h
  · obtain heq | hunsent' := h'
    · exact Stage.failed.inj heq
    · cases hunsent'
  · obtain rfl | hunsent' := h'
    · cases hunsent
    · exact hunsent.unique hunsent'

/-- One that fails has not published a certificate. -/
theorem Fails.not_published {past : List (Exchange Chore.Reply)} {e : SetupError}
    {b : CertificateBundle} (he : Fails s past e) : ¬ Reaches s past (.published b) := by
  intro h
  obtain ⟨stage, hstage, hfail⟩ := he
  obtain rfl := h.unique hstage
  obtain heq | hunsent := hfail
  · cases heq
  · cases hunsent

/-- What is left goes through the stages up to the end. -/
theorem reaches_of_trace_left {stage : Stage} {past w : List (Exchange Chore.Reply)}
    {result : Except SetupError CertificateBundle} (hstage : Reaches s past stage)
    (h : (left s stage).Trace w result) :
    (∃ b, Reaches s (past ++ w) (.published b) ∧ result = .ok b) ∨
      ∃ e, Fails s (past ++ w) e ∧ result = .error e := by
  induction w generalizing past stage with
  | nil =>
    have hleft := proceeds_left (s := s) stage
    cases hp : left s stage with
    | ask q next =>
      rw [hp, Program.trace_ask_iff] at h
      obtain ⟨_, _, hnil, -⟩ := h
      cases hnil
    | done result' =>
      rw [hp, Program.trace_done_iff] at h
      rw [hp] at hleft
      obtain ⟨-, rfl⟩ := h
      rw [List.append_nil]
      obtain ⟨b, rfl, rfl⟩ | ⟨e, he, rfl⟩ := hleft
      · exact .inl ⟨b, hstage, rfl⟩
      · exact .inr ⟨e, ⟨stage, hstage, he⟩, rfl⟩
  | cons x w ih =>
    have hleft := proceeds_left (s := s) stage
    cases hp : left s stage with
    | done result' =>
      rw [hp, Program.trace_done_iff] at h
      cases h.1
    | ask q next =>
      rw [hp, Program.trace_ask_iff] at h
      rw [hp] at hleft
      obtain ⟨r, w', hw, hrest⟩ := h
      obtain ⟨rfl, rfl⟩ := List.cons.inj hw
      obtain ⟨stage', hstep, hnext⟩ := hleft r
      rw [hnext] at hrest
      have hend := ih (hstage.step hstep) hrest
      simpa using hend

/-- A run of the set-up goes through the stages up to the end. -/
theorem reaches_of_trace {w : List (Exchange Chore.Reply)}
    {result : Except SetupError CertificateBundle} (h : (bootstrap s).Trace w result) :
    (∃ b, Reaches s w (.published b) ∧ result = .ok b) ∨ ∃ e, Fails s w e ∧ result = .error e :=
  reaches_of_trace_left .start h

end ConnectorKeeper.Setup
