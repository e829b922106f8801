import ConnectorKeeper.Certificate.Webhook

/-!
# Setting up the webhook

Before the webhook is served it needs a certificate that all replicas share and
that the API server trusts.

* The certificate is read from the secret.  If there is no secret, a certificate
  is made and the secret created; a replica that comes second reads what the
  first one stored.
* It is written to files.
* It is published as the one to trust.

A step that fails ends the set-up.
-/

namespace ConnectorKeeper

/-- Why the set-up failed. -/
inductive SetupError where
  /-- The API server or the way to it. -/
  | api (error : Api.Error)
  /-- No certificate can be made for the name. -/
  | generate
  /-- A file or directory could not be written. -/
  | file (path : String) (fault : FileFault)
  /-- The secret lacks the certificate or the key. -/
  | incompleteSecret (name : String)
  /-- The configuration has no webhook of the name. -/
  | webhookNotFound (webhook config : String)
deriving DecidableEq

/-- The message of an error, where the words are ours. -/
def SetupError.message : SetupError → String
  | .api e => "Kubernetes API error: " ++ e.text
  | .generate => "certificate generation failed"
  | .file path _ => "I/O error on " ++ Text.quoted path
  | .incompleteSecret name => s!"secret {name} exists but does not contain tls.crt and tls.key"
  | .webhookNotFound webhook config =>
      s!"webhook with name {Text.quoted webhook} not found in " ++
        s!"ValidatingWebhookConfiguration {config}"

/-- What the set-up asks of its surroundings. -/
inductive Chore where
  /-- An exchange with the API server. -/
  | api (request : Api.Request)
  /-- A new certificate for a name. -/
  | generate (commonName : String)
  /-- A directory. -/
  | makeDirectory (path : String)
  /-- A file. -/
  | writeFile (path : String) (file : File)

/-- The answers to a chore. -/
def Chore.Reply : Chore → Type
  | .api _ => Api.Reply
  | .generate _ => CertificateBundle
  | .makeDirectory _ | .writeFile .. => Except FileFault Unit

/-- A part of the set-up, which may fail. -/
abbrev Setup (α : Type) := Program Chore Chore.Reply (Except SetupError α)

namespace Setup

/-- A part after another one, if that succeeded. -/
def andThen {α β : Type} (first : Setup α) (next : α → Setup β) : Setup β :=
  Program.bind first fun
    | .ok a => next a
    | .error e => .done (.error e)

/-- An exchange with the API server, and how to go on from its outcome. -/
def exchange {α β : Type} (decoder : Json.Decoder α) (request : Except Api.Error Api.Request)
    (next : Except Api.Error α → Setup β) : Setup β :=
  match request with
  | .error e => next (.error e)
  | .ok request => .ask (.api request) fun (reply : Api.Reply) => next (Api.judge decoder reply)

/-- Writes one of the files. -/
def writeFile (path : String) (file : File) : Setup Unit :=
  .ask (.writeFile path file) fun
    | .ok () => .done (.ok ())
    | .error fault => .done (.error (.file path fault))

/-- Writes certificate and key to their files. -/
def writeFiles (s : CertificateSettings) (b : CertificateBundle) : Setup Unit :=
  .ask (.makeDirectory s.directory) fun
    | .error fault => .done (.error (.file s.directory fault))
    | .ok () =>
        (writeFile s.certificatePath ⟨b.certificate, false⟩).andThen fun _ =>
          writeFile s.keyPath ⟨b.key, true⟩

/-- The request for the secret. -/
def secretRequest (s : CertificateSettings) : Except Api.Error Api.Request :=
  Api.objectRequest .get (Secret.collection s.namespaceName) s.secretName "" "" none

/-- The certificate in a secret that was read. -/
def bundleOf (s : CertificateSettings) (secret : Secret) : Setup CertificateBundle :=
  match secret.bundle with
  | some b => .done (.ok b)
  | none => .done (.error (.incompleteSecret s.secretName))

/-- Reads the certificate that another replica stored meanwhile. -/
def reload (s : CertificateSettings) : Setup CertificateBundle :=
  exchange Secret.decoder (secretRequest s) fun
    | .ok secret => bundleOf s secret
    | .error e => .done (.error (.api e))

/-- Makes a certificate and stores it, unless another replica was faster. -/
def generate (s : CertificateSettings) : Setup CertificateBundle :=
  if nameable s.commonName then
    .ask (.generate s.commonName) fun (made : CertificateBundle) =>
      exchange Secret.decoder
        (Api.createRequest (Secret.collection s.namespaceName) (Secret.ofBundle s made)) fun
          | .ok _ => .done (.ok made)
          | .error (.api e) =>
              if e.code = 409 then reload s else .done (.error (.api (.api e)))
          | .error e => .done (.error (.api e))
  else .done (.error .generate)

/-- The shared certificate. -/
def shared (s : CertificateSettings) : Setup CertificateBundle :=
  exchange Secret.decoder (secretRequest s) fun
    | .ok secret => bundleOf s secret
    | .error (.api e) =>
        if e.reason = "NotFound" then generate s else .done (.error (.api (.api e)))
    | .error e => .done (.error (.api e))

/-- The shared certificate, with its files written. -/
def load (s : CertificateSettings) : Setup CertificateBundle :=
  (shared s).andThen fun b => (writeFiles s b).andThen fun _ => .done (.ok b)

/-- Publishes certificates as the ones to trust. -/
def publish (s : CertificateSettings) (ca : List UInt8) : Setup Unit :=
  let request (method : Http.Method) (body : Option Json) : Except Api.Error Api.Request :=
    Api.objectRequest method WebhookConfiguration.collection s.webhookConfigName "" "" body
  exchange WebhookConfiguration.decoder (request .get none) fun
    | .error e => .done (.error (.api e))
    | .ok config =>
        match config.setCaBundle s.webhookName ca with
        | none => .done (.error (.webhookNotFound s.webhookName s.webhookConfigName))
        | some config =>
            exchange WebhookConfiguration.decoder (request .put (some config.toJson)) fun
              | .ok _ => .done (.ok ())
              | .error e => .done (.error (.api e))

/-- The whole set-up. -/
def bootstrap (s : CertificateSettings) : Setup CertificateBundle :=
  (load s).andThen fun b => (publish s (Text.utf8 b.certificate)).andThen fun _ => .done (.ok b)

end Setup

end ConnectorKeeper
