import ConnectorKeeper.Json.Printer
import ConnectorKeeper.Proofs.SetupStages
import ConnectorKeeper.Proofs.StoredCertificate

/-!
# Only a served certificate is published

Whatever the set-up is answered, it replaces the webhook's configuration only by
the one that it has just read, with the certificate of its entries changed, and
only when the files hold that certificate, which comes from the secret or was
stored there by the set-up itself (`Setup.publishesServed_of_trace`).

Each stage tells what the exchanges before it have brought about (`Setup.Holds`),
and a step keeps that up (`Setup.holds_step`).
-/

namespace ConnectorKeeper

open Program (Exchange)

/-! ## Places of files -/

theorem Path.join_injective {dir a b : String} (ha : a.startsWith "/" = false)
    (hb : b.startsWith "/" = false) (h : join dir a = join dir b) : a = b := by
  simp only [join, ha, hb] at h
  split at h
  · exact h
  · split at h
    · exact (String.append_right_inj _).1 h
    · exact (String.append_right_inj _).1 h

/-- Certificate and key are written to different files. -/
theorem CertificateSettings.certificatePath_ne_keyPath (s : CertificateSettings) :
    s.certificatePath ≠ s.keyPath := by
  intro h
  have hentry : certificateEntry = keyEntry :=
    Path.join_injective (by decide +kernel) (by decide +kernel) h
  exact absurd hentry (by decide)

/-- Whether a chore makes a directory or a file. -/
def Chore.IsFile : Chore → Prop
  | .makeDirectory _ | .writeFile .. => True
  | .api _ | .generate _ => False

namespace Setup

/-! ## What the exchanges have brought about -/

/-- The file tree after an exchange. -/
def filesAfter (files : Files) : Exchange Chore.Reply → Files
  | ⟨.writeFile path file, .ok ()⟩ => files.insert path file
  | _ => files

/-- The files hold a certificate and its key. -/
structure Serves (s : CertificateSettings) (files : Files) (b : CertificateBundle) : Prop where
  certificate : files.get? s.certificatePath = some ⟨b.certificate, false⟩
  key : files.get? s.keyPath = some ⟨b.key, true⟩

/-- A certificate was read from the secret, or made and stored there. -/
inductive Shared (s : CertificateSettings) (past : List (Exchange Chore.Reply))
    (b : CertificateBundle) : Prop
  | read {q : Api.Request} {r : Api.Reply} {secret : Secret} (hmem : sent q r ∈ past)
      (hq : secretRequest s = .ok q) (hr : Api.judge Secret.decoder r = .ok secret)
      (hb : secret.bundle = some b)
  | stored {q : Api.Request} {r : Api.Reply} {secret : Secret}
      (hmade : (⟨.generate s.commonName, b⟩ : Exchange Chore.Reply) ∈ past)
      (hmem : sent q r ∈ past) (hq : creation s b = .ok q)
      (hr : Api.judge Secret.decoder r = .ok secret)

/-- The last exchange read the configuration. -/
def JustRead (s : CertificateSettings) (past : List (Exchange Chore.Reply))
    (config : WebhookConfiguration) : Prop :=
  ∃ earlier q r, past = earlier ++ [sent q r] ∧ configRequest s .get none = .ok q ∧
    Api.judge WebhookConfiguration.decoder r = .ok config

/-- What a stage tells of the exchanges that led to it. -/
def Holds (s : CertificateSettings) (files : Files) (past : List (Exchange Chore.Reply)) :
    Stage → Prop
  | .made b => (⟨.generate s.commonName, b⟩ : Exchange Chore.Reply) ∈ past
  | .obtained b | .prepared b => Shared s past b
  | .certified b => Shared s past b ∧
      (past.foldl filesAfter files).get? s.certificatePath = some ⟨b.certificate, false⟩
  | .served b | .published b => Shared s past b ∧ Serves s (past.foldl filesAfter files) b
  | .found b config changed => (Shared s past b ∧ Serves s (past.foldl filesAfter files) b) ∧
      JustRead s past config ∧
      config.setCaBundle s.webhookName (Text.utf8 b.certificate) = some changed
  | .reading _ | .absent | .failed _ => True

section Steps

variable {s : CertificateSettings} {files : Files} {past w : List (Exchange Chore.Reply)}
  {x : Exchange Chore.Reply} {b : CertificateBundle} {stage next : Stage}

theorem Shared.mono (h : Shared s past b) (hsub : past ⊆ w) : Shared s w b := by
  cases h with
  | read hmem hq hr hb => exact .read (hsub hmem) hq hr hb
  | stored hmade hmem hq hr => exact .stored (hsub hmade) (hsub hmem) hq hr

/-- What the replicas share stays shared. -/
theorem Shared.concat (h : Shared s past b) : Shared s (past ++ [x]) b :=
  h.mono (List.subset_append_left ..)

/-- A request leaves the files. -/
theorem foldl_filesAfter_sent (q : Api.Request) (r : Api.Reply) :
    (past ++ [sent q r]).foldl filesAfter files = past.foldl filesAfter files := by
  rw [List.foldl_append]
  rfl

theorem holds_step (hx : Step s stage x next) (h : Holds s files past stage) :
    Holds s files (past ++ [x]) next := by
  cases hx with
  | read hq hr hb => exact .read List.mem_concat_self hq hr hb
  | make hname => exact List.mem_concat_self
  | store hq hr => exact .stored (List.mem_append_left _ h) List.mem_concat_self hq hr
  | prepare => exact Shared.concat h
  | certify =>
    refine ⟨Shared.concat h, ?_⟩
    rw [List.foldl_append]
    exact (StringMap.get?_insert ..).trans (if_pos rfl)
  | serve =>
    obtain ⟨hshared, hcertificate⟩ := h
    refine ⟨hshared.concat, ?_⟩
    rw [List.foldl_append]
    constructor
    case certificate =>
      show StringMap.get? (StringMap.insert _ _ _) _ = _
      rw [StringMap.get?_insert, if_neg s.certificatePath_ne_keyPath]
      exact hcertificate
    case key => exact (StringMap.get?_insert ..).trans (if_pos rfl)
  | find hq hr hset =>
    obtain ⟨hshared, hserves⟩ := h
    refine ⟨⟨hshared.concat, ?_⟩, ⟨past, _, _, rfl, hq, hr⟩, hset⟩
    rw [foldl_filesAfter_sent]
    exact hserves
  | publish hq hr =>
    obtain ⟨⟨hshared, hserves⟩, -, -⟩ := h
    refine ⟨hshared.concat, ?_⟩
    rw [foldl_filesAfter_sent]
    exact hserves
  | _ => trivial

/-- What holds at a stage holds whenever it is reached. -/
theorem Reaches.holds (files : Files) (h : Reaches s past stage) : Holds s files past stage := by
  induction h with
  | start => trivial
  | step _ hx ih => exact holds_step hx ih

end Steps

/-! ## Runs -/

/-- A run of the set-up, with its result. -/
structure PublishesServed (s : CertificateSettings) (w : List (Exchange Chore.Reply))
    (result : Except SetupError CertificateBundle) : Prop where
  /-- The configuration is replaced at the very end: by the one just read, with a
  certificate that is shared and served as the one to trust for the webhook. -/
  put : ∀ before q r after, w = before ++ sent q r :: after → q.method = .put → after = [] ∧
    ∃ b config webhooks, Shared s before b ∧
      (∀ files, Serves s (before.foldl filesAfter files) b) ∧ JustRead s before config ∧
      config.webhooks = some webhooks ∧ (∃ entry ∈ webhooks, entry.name = s.webhookName) ∧
      configRequest s .put (some (WebhookConfiguration.toJson { config with
        webhooks := some (webhooks.map fun entry => if entry.name = s.webhookName then
          WebhookConfiguration.trusting (Text.utf8 b.certificate) entry else entry) })) = .ok q
  /-- A configuration without the webhook is the end, and none is replaced. -/
  unnamed : ∀ before q r after config, w = before ++ sent q r :: after →
    configRequest s .get none = .ok q → Api.judge WebhookConfiguration.decoder r = .ok config →
    (∀ entry ∈ config.webhooks.getD [], entry.name ≠ s.webhookName) →
      after = [] ∧ result = .error (.webhookNotFound s.webhookName s.webhookConfigName) ∧
        ∀ q r, sent q r ∈ w → q.method ≠ .put
  /-- Files are written of a shared certificate only. -/
  file : ∀ before x after, w = before ++ x :: after → x.1.IsFile → ∃ b, Shared s before b ∧
    (x.1 = .makeDirectory s.directory ∨ x.1 = .writeFile s.certificatePath ⟨b.certificate, false⟩ ∨
      x.1 = .writeFile s.keyPath ⟨b.key, true⟩)
  /-- A step that fails is the end. -/
  stop : ∀ before after e, w = before ++ after → Fails s before e → after = [] ∧ result = .error e
  /-- The end is a certificate that is published, or a step that failed. -/
  ends : (∃ b, Reaches s w (.published b) ∧ result = .ok b) ∨
    ∃ e, Fails s w e ∧ result = .error e

section Runs

variable {s : CertificateSettings} {past w : List (Exchange Chore.Reply)} {stage next : Stage}
  {q : Api.Request} {r : Api.Reply} {x : Exchange Chore.Reply}

/-- Nothing follows the request that publishes the certificate. -/
theorem Reaches.eq_nil_of_put {before after : List (Exchange Chore.Reply)} {last : Stage}
    (h : Reaches s (before ++ sent q r :: after) last) (hq : q.method = .put) : after = [] := by
  cases after with
  | nil => rfl
  | cons y after =>
    exfalso
    rw [List.append_cons] at h
    obtain ⟨stage, next, hstage, hy⟩ := h.step_of_split
    obtain ⟨earlier, -, hput⟩ := reaches_concat_iff.1 hstage
    obtain ⟨_, _, _, -, -, rfl | ⟨e, rfl⟩⟩ := hput.of_put hq
    · exact Step.not_from_published hy
    · exact Step.not_from_failed hy

/-- The directory, the certificate and the key are all that is written, each of what is
shared. -/
theorem Step.of_isFile {files : Files} (hx : Step s stage x next) (hfile : x.1.IsFile)
    (h : Holds s files past stage) : ∃ b, Shared s past b ∧
      (x.1 = .makeDirectory s.directory ∨
        x.1 = .writeFile s.certificatePath ⟨b.certificate, false⟩ ∨
          x.1 = .writeFile s.keyPath ⟨b.key, true⟩) := by
  cases hx with
  | prepare | unprepared => exact ⟨_, h, .inl rfl⟩
  | certify | uncertified => exact ⟨_, h, .inr (.inl rfl)⟩
  | serve | unserved => exact ⟨_, h.1, .inr (.inr rfl)⟩
  | _ => exact absurd hfile id

variable {result : Except SetupError CertificateBundle}

theorem exists_reaches_of_trace (h : (bootstrap s).Trace w result) : ∃ last, Reaches s w last := by
  obtain ⟨b, hb, -⟩ | ⟨e, ⟨stage, hstage, -⟩, -⟩ := reaches_of_trace h
  · exact ⟨_, hb⟩
  · exact ⟨_, hstage⟩

/-- A step that fails is the end of a run. -/
theorem eq_nil_and_eq_error_of_fails {before after : List (Exchange Chore.Reply)} {e : SetupError}
    (h : (bootstrap s).Trace w result) (hsplit : w = before ++ after) (he : Fails s before e) :
    after = [] ∧ result = .error e := by
  subst hsplit
  obtain ⟨last, hlast⟩ := exists_reaches_of_trace h
  obtain rfl := he.eq_nil hlast
  rw [List.append_nil] at h
  refine ⟨rfl, ?_⟩
  obtain ⟨b, hb, -⟩ | ⟨e', he', rfl⟩ := reaches_of_trace h
  · exact absurd hb he.not_published
  · rw [he.unique he']

/-- Whatever the API server, the maker of certificates and the file system answer, the
set-up publishes only what it serves. -/
theorem publishesServed_of_trace (h : (bootstrap s).Trace w result) :
    PublishesServed s w result := by
  obtain ⟨last, hlast⟩ := exists_reaches_of_trace h
  constructor
  case put =>
    rintro before q r after rfl hq
    refine ⟨hlast.eq_nil_of_put hq, ?_⟩
    obtain ⟨stage, next, hstage, hx⟩ := hlast.step_of_split
    obtain ⟨b, config, changed, rfl, hrequest, -⟩ := hx.of_put hq
    obtain ⟨⟨hshared, -⟩, hread, hset⟩ := hstage.holds .empty
    obtain ⟨webhooks, hwebhooks, hentry, rfl⟩ := WebhookConfiguration.setCaBundle_eq_some_iff.1 hset
    refine ⟨b, config, webhooks, hshared, ?_, hread, hwebhooks, hentry, hrequest⟩
    intro files
    exact (hstage.holds files).1.2
  case unnamed =>
    rintro before q r after config rfl hq hr hnone
    obtain ⟨stage, next, hstage, hx⟩ := hlast.step_of_split
    obtain ⟨b, rfl⟩ := hx.of_configRead hq
    have hstep := Step.unnamed (b := b) hq hr (WebhookConfiguration.setCaBundle_eq_none_iff.2 hnone)
    have hfails : Fails s (before ++ [sent q r]) _ := ⟨_, hstage.step hstep, .inl rfl⟩
    obtain ⟨rfl, hresult⟩ := eq_nil_and_eq_error_of_fails h (List.append_cons ..) hfails
    refine ⟨rfl, hresult, ?_⟩
    intro q' r' hmem hput
    obtain ⟨front, back, hsplit⟩ := List.append_of_mem hmem
    rw [hsplit] at hlast
    obtain rfl := hlast.eq_nil_of_put hput
    obtain ⟨-, hlasts⟩ := List.append_inj' hsplit rfl
    cases hlasts
    have hmethod := (method_of_configRequest hq).symm.trans hput
    cases hmethod
  case file =>
    rintro before x after rfl hfile
    obtain ⟨stage, next, hstage, hx⟩ := hlast.step_of_split
    exact hx.of_isFile hfile (hstage.holds .empty)
  case stop =>
    intro before after e hsplit he
    exact eq_nil_and_eq_error_of_fails h hsplit he
  case ends => exact reaches_of_trace h

end Runs

/-- Surroundings without a secret, whose configuration has one webhook. -/
def fresh (s : CertificateSettings) (made : CertificateBundle) : (q : Chore) → q.Reply
  | .generate _ => made
  | .makeDirectory _ | .writeFile .. => Except.ok ()
  | .api q =>
      let reply (status : Nat) (members : List (String × Json)) : Api.Reply :=
        .answer status (.ofString (Json.print (.record members)))
      match q.method, secretRequest s with
      | .get, .ok q' =>
          if q.path = q'.path then
            reply 404
              [("status", .text "Failure"), ("reason", .text "NotFound"), ("code", .int 404)]
          else reply 200 [("webhooks", .array [.record [("name", .text s.webhookName)]])]
      | .post, _ => reply 201 []
      | _, _ => reply 200 []

/-- The settings of one program. -/
def keeper : CertificateSettings where
  namespaceName := "operators"
  serviceName := "keeper"
  secretName := "keeper-tls"
  directory := "/tmp/certs"
  webhookName := "connectors.debezium.io"
  webhookConfigName := "connectors"

/-- A run in fresh surroundings. -/
def firstRun : List (Exchange Chore.Reply) × Except SetupError CertificateBundle :=
  (bootstrap keeper).transcript (fresh keeper ⟨"certificate", "key"⟩)

/-- Without a secret, a certificate is made, stored, served and published. -/
theorem publishesServed_of_trace_fresh :
    (firstRun.1.length = 8 ∧ firstRun.2 = .ok ⟨"certificate", "key"⟩) ∧
      PublishesServed keeper firstRun.1 firstRun.2 :=
  ⟨by decide +kernel, publishesServed_of_trace (Program.trace_transcript _ _)⟩

end Setup

end ConnectorKeeper
