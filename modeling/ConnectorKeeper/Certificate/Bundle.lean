import ConnectorKeeper.Api.Client
import ConnectorKeeper.Files
import ConnectorKeeper.Metadata
import ConnectorKeeper.Text.Base64

/-!
# The webhook's certificate

A certificate and its key, the settings that say where they live, and the
secret that all replicas share them through.
-/

namespace ConnectorKeeper

open Json (Decoder optional)

/-- A certificate and its private key, as PEM texts. -/
structure CertificateBundle where
  /-- The certificate. -/
  certificate : String
  /-- The key. -/
  key : String
deriving DecidableEq

/-- The name of the certificate in a secret and in a directory. -/
def certificateEntry : String := "tls.crt"

/-- The name of the key in a secret and in a directory. -/
def keyEntry : String := "tls.key"

/-- Where the webhook's certificate lives and who has to trust it. -/
structure CertificateSettings where
  /-- The namespace of service and secret. -/
  namespaceName : String
  /-- The service that the webhook is reached by. -/
  serviceName : String
  /-- The secret. -/
  secretName : String
  /-- The directory of the files. -/
  directory : String
  /-- The webhook's entry in its configuration. -/
  webhookName : String
  /-- The webhook's configuration. -/
  webhookConfigName : String

namespace CertificateSettings

/-- The name that the API server reaches the webhook by. -/
def commonName (s : CertificateSettings) : String := s.serviceName ++ "." ++ s.namespaceName ++ ".svc"

/-- The file of the certificate. -/
def certificatePath (s : CertificateSettings) : String := Path.join s.directory certificateEntry

/-- The file of the key. -/
def keyPath (s : CertificateSettings) : String := Path.join s.directory keyEntry

end CertificateSettings

/-- Whether a certificate can be made for a name: names are ASCII. -/
def nameable (commonName : String) : Bool := commonName.toList.all (·.toNat < 128)

/-! ## Bytes in JSON -/

/-- Reads bytes. -/
def bytesDecoder : Decoder (List UInt8) := Decoder.parsed Text.Base64.decode?

/-- Reads bytes, with null for none of them. -/
def bytesOrNull : Decoder (List UInt8) := fun room v =>
  (·.getD []) <$> Decoder.nullable bytesDecoder room v

/-- Bytes as a value. -/
def bytesJson (bytes : List UInt8) : Json := .text (Text.Base64.encode bytes)

/-! ## Secrets -/

/-- A secret, as far as it is looked at. -/
structure Secret where
  /-- What it holds. -/
  data : Option (StringMap (List UInt8))

namespace Secret

/-- The version of secrets. -/
def version : String := "v1"

/-- Reads a secret. -/
def decoder : Decoder Secret :=
  Decoder.lenient ["apiVersion", "data", "immutable", "kind", "metadata", "stringData", "type"]
    fun f =>
      f.fixed "apiVersion" version *> f.fixed "kind" "Secret" *>
        (Secret.mk <$> f.latest? "data" (Decoder.mapOf bytesOrNull)
          <* f.latest? "immutable" Decoder.boolean
          <* f.latest? "metadata" Metadata.decoder
          <* f.latest? "stringData" Metadata.textMap
          <* f.latest? "type" Decoder.string)

/-- An entry of a secret as text, none if it is empty. -/
def entry (s : Secret) (name : String) : Option String :=
  match s.data.bind (·.get? name) with
  | none | some [] => none
  | some bytes => some (Text.ByteText.ofBytes bytes).lossy

/-- The certificate and key in a secret, if it holds both. -/
def bundle (s : Secret) : Option CertificateBundle := do
  let certificate ← s.entry certificateEntry
  let key ← s.entry keyEntry
  some ⟨certificate, key⟩

/-- The secret that holds a certificate and its key, as a value. -/
def ofBundle (s : CertificateSettings) (b : CertificateBundle) : Json :=
  .record [("apiVersion", .text version), ("kind", .text "Secret"),
    ("metadata", .record [("name", .text s.secretName), ("namespace", .text s.namespaceName)]),
    ("data", .record [(certificateEntry, bytesJson (Text.utf8 b.certificate)),
      (keyEntry, bytesJson (Text.utf8 b.key))]),
    ("type", .text "kubernetes.io/tls")]

/-- The path of the secrets of a namespace. -/
def collection (namespaceName : String) : String := s!"/api/v1/namespaces/{namespaceName}/secrets"

end Secret

end ConnectorKeeper
