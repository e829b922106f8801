import ConnectorKeeper.Certificate.PrivateKey
import ConnectorKeeper.Files
import ConnectorKeeper.Text.Quoted

/-!
# Serving over TLS

What the webhook is served with is read from its two files: all certificates of
the one and the first private key of the other.  The first certificate has to be
the key's.
-/

namespace ConnectorKeeper

/-- What is served with. -/
structure Tls where
  /-- The certificates, that of the webhook first. -/
  chain : List (List UInt8)
  /-- The key of the first certificate. -/
  key : PrivateKey
  /-- The protocols on offer, the preferred one first. -/
  protocols : List String
deriving DecidableEq

/-- Why nothing can be served. -/
inductive TlsError where
  /-- A file is not there or is no PEM text. -/
  | file (path : String)
  /-- There is no certificate. -/
  | noCertificate (path : String)
  /-- There is no key. -/
  | noKey (path : String)
  /-- The key or the certificate cannot be used, or they are not of a pair. -/
  | unusable
deriving DecidableEq

/-- The message of an error, where the words are ours. -/
def TlsError.message : TlsError → String
  | .file path => "I/O error on " ++ Text.quoted path
  | .noCertificate path => "no certificates found in " ++ Text.quoted path
  | .noKey path => "no private key found in " ++ Text.quoted path
  | .unusable => "TLS configuration error"

namespace Tls

/-- The protocols on offer. -/
def offered (http2 : Bool) : List String := if http2 then ["h2", "http/1.1"] else ["http/1.1"]

/-- The contents of a file. -/
def contents (files : Files) (path : String) : Except TlsError Text.Pem.Contents :=
  match files.get? path with
  | none => .error (.file path)
  | some file => .ok (Text.Pem.read file.content)

/-- The certificates in a file.  A fault anywhere spoils it. -/
def certificates (files : Files) (path : String) : Except TlsError (List (List UInt8)) := do
  let c ← contents files path
  let found := (c.sections.filter (·.label = "CERTIFICATE")).map (·.bytes)
  if c.faulty then .error (.file path)
  else if found.isEmpty then .error (.noCertificate path)
  else .ok found

/-- The first key in a file.  A fault after it does not matter. -/
def firstKey (files : Files) (path : String) :
    Except TlsError (Text.Pem.Section × (List UInt8 → Option PrivateKey)) := do
  let c ← contents files path
  let found := c.sections.findSome? fun s => (PrivateKey.readers.lookup s.label).map (s, ·)
  match found with
  | some found => .ok found
  | none => .error (if c.faulty then .file path else .noKey path)

/-- What the webhook is served with. -/
def load (files : Files) (certificatePath keyPath : String) (http2 : Bool) :
    Except TlsError Tls := do
  let chain ← certificates files certificatePath
  let (s, read) ← firstKey files keyPath
  let pair := do
    let key ← read s.bytes
    let shown ← PublicKey.ofCertificate? (← chain.head?)
    if key.owns shown then some key else none
  match pair with
  | some key => .ok ⟨chain, key, offered http2⟩
  | none => .error .unusable

end Tls

end ConnectorKeeper
