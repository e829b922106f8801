import ConnectorKeeper.Certificate.Curve
import ConnectorKeeper.Certificate.Der
import ConnectorKeeper.Text.Pem

/-!
# Private keys

A private key and the public key that belongs to it, in the form in which a
certificate carries it.  A key is read from a section of a PEM text, in one of
three forms: bare for a curve, bare for RSA, or either within an envelope that
names the kind.
-/

namespace ConnectorKeeper

open Der (Element)

/-- What a certificate says of a public key: its kind, with the curve if there is
one, and its bytes. -/
structure PublicKey where
  /-- The content of the kind. -/
  kind : List UInt8
  /-- The bytes. -/
  bytes : List UInt8
deriving DecidableEq

/-- A private key. -/
inductive PrivateKey where
  /-- A multiple of the curve's point. -/
  | curve (curve : Curve) (secret : Nat)
  /-- Modulus and exponent of an RSA key, as they are written. -/
  | rsa (modulus exponent : Element)
deriving DecidableEq

/-- An element as bytes, if its content is not long. -/
def Der.Element.short (e : Element) : List UInt8 :=
  e.tag :: UInt8.ofNat e.content.length :: e.content

namespace PrivateKey

/-- The identifier of keys on curves. -/
def curveKind : List UInt8 := [0x2a, 0x86, 0x48, 0xce, 0x3d, 0x02, 0x01]

/-- The identifier of RSA keys. -/
def rsaKind : List UInt8 := [0x2a, 0x86, 0x48, 0x86, 0xf7, 0x0d, 0x01, 0x01, 0x01]

/-- The content of the kind of keys on a curve. -/
def curveKindContent (c : Curve) : List UInt8 :=
  (Element.mk Der.identifierTag curveKind).short ++
    (Element.mk Der.identifierTag c.identifier).short

/-- The content of the kind of RSA keys. -/
def rsaKindContent : List UInt8 := (Element.mk Der.identifierTag rsaKind).short ++ [0x05, 0x00]

/-- The bytes of a point that is not at infinity. -/
def pointBytes (c : Curve) : Curve.Point → List UInt8
  | none => [0x00]
  | some (x, y) => 0x04 :: (Der.bytesOf c.size x ++ Der.bytesOf c.size y)

/-- Whether a public key belongs to a private one. -/
def owns (key : PrivateKey) (shown : PublicKey) : Bool :=
  match key with
  | .curve c secret =>
      shown = ⟨curveKindContent c, pointBytes c (c.scale secret (some c.base))⟩
  | .rsa modulus exponent =>
      shown.kind = rsaKindContent &&
        Der.sequence? shown.bytes = some [modulus, exponent]

/-- The numbered part of a sequence. -/
def part? (n : Nat) (es : List Element) : Option Element := es.find? (·.tag = Der.partTag n)

/-- The curve that a bare key names. -/
def namedCurve? (es : List Element) : Option Curve := do
  let e ← part? 0 es
  Curve.all.find? fun c => e.content = (Element.mk Der.identifierTag c.identifier).short

/-- A key on a curve, with the curve if an envelope names it.  If the key holds
its public key too, that has to be the right one. -/
def ofCurve? (named : Option Curve) (bytes : List UInt8) : Option PrivateKey := do
  match ← Der.sequence? bytes with
  | version :: secret :: more =>
      let c ← named.or (namedCurve? more)
      let k := Der.natural secret.content
      let held := (part? 1 more).all fun e =>
        (do (← (← Der.elements? e.content).head?).bits?) =
          some (pointBytes c (c.scale k (some c.base)))
      if version.natural? = some 1 && secret.tag = Der.bytesTag && 0 < k && k < c.order && held
      then some (.curve c k) else none
  | _ => none

/-- An RSA key of a size that is in use, whose parts fit together. -/
def ofRsa? (bytes : List UInt8) : Option PrivateKey := do
  match ← Der.sequence? bytes with
  | [version, modulus, exponent, secret, p, q, _, _, _] =>
      let v ← version.natural?
      let n ← modulus.natural?
      let e ← exponent.natural?
      let d ← secret.natural?
      let p ← p.natural?
      let q ← q.natural?
      if v = 0 && p * q = n && 2047 ≤ n.log2 && n.log2 < 8192 && e * d % (p - 1) = 1 &&
        e * d % (q - 1) = 1
      then some (.rsa modulus exponent) else none
  | _ => none

/-- A key within an envelope. -/
def ofEnvelope? (bytes : List UInt8) : Option PrivateKey := do
  match ← Der.sequence? bytes with
  | version :: kind :: key :: _ =>
      if version.natural?.any (· ≤ 1) && kind.tag = Der.sequenceTag && key.tag = Der.bytesTag then
        if kind.content = rsaKindContent then ofRsa? key.content
        else do
          let c ← Curve.all.find? (curveKindContent · = kind.content)
          ofCurve? (some c) key.content
      else none
  | _ => none

/-- How the keys in sections of a PEM text are read, by their labels. -/
def readers : List (String × (List UInt8 → Option PrivateKey)) :=
  [("PRIVATE KEY", ofEnvelope?), ("EC PRIVATE KEY", ofCurve? none), ("RSA PRIVATE KEY", ofRsa?)]

end PrivateKey

/-- The public key in a certificate. -/
def PublicKey.ofCertificate? (bytes : List UInt8) : Option PublicKey := do
  match ← Der.sequence? bytes with
  | [body, algorithm, signature] =>
      match ← body.sequence? with
      | version :: serial :: signedWith :: issuer :: validity :: subject :: key :: more =>
          let framed := version = ⟨Der.partTag 0, [0x02, 0x01, 0x02]⟩ &&
            serial.tag = Der.integerTag && signedWith = algorithm &&
            [algorithm, issuer, validity, subject, key].all (·.tag = Der.sequenceTag) &&
            more.all (·.tag = Der.partTag 3) && signature.bits?.isSome
          match ← key.sequence? with
          | [kind, bits] =>
              let bytes ← bits.bits?
              if framed && kind.tag = Der.sequenceTag then some ⟨kind.content, bytes⟩ else none
          | _ => none
      | _ => none
  | _ => none

end ConnectorKeeper
