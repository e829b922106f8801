/-!
# Elliptic curves

The curves of keys, with the addition of their points.  A curve has the equation
y² = x³ - 3x + b modulo a prime.  Addition does not need b.
-/

namespace ConnectorKeeper

/-- A curve and the point that its keys are multiples of. -/
structure Curve where
  /-- The object identifier. -/
  identifier : List UInt8
  /-- The number of bytes of a coordinate. -/
  size : Nat
  /-- The prime. -/
  prime : Nat
  /-- The number of multiples of the point. -/
  order : Nat
  /-- The coordinates of the point. -/
  base : Nat × Nat
deriving DecidableEq

namespace Curve

/-- The curve of 256 bits. -/
def p256 : Curve where
  identifier := [0x2a, 0x86, 0x48, 0xce, 0x3d, 0x03, 0x01, 0x07]
  size := 32
  prime := 0xffffffff00000001000000000000000000000000ffffffffffffffffffffffff
  order := 0xffffffff00000000ffffffffffffffffbce6faada7179e84f3b9cac2fc632551
  base := (0x6b17d1f2e12c4247f8bce6e563a440f277037d812deb33a0f4a13945d898c296,
    0x4fe342e2fe1a7f9b8ee7eb4a7c0f9e162bce33576b315ececbb6406837bf51f5)

/-- The curve of 384 bits. -/
def p384 : Curve where
  identifier := [0x2b, 0x81, 0x04, 0x00, 0x22]
  size := 48
  prime := Nat.pow 2 384 - Nat.pow 2 128 - Nat.pow 2 96 + Nat.pow 2 32 - 1
  order := 0xffffffffffffffffffffffffffffffffffffffffffffffff * Nat.pow 2 192 +
    0xc7634d81f4372ddf581a0db248b0a77aecec196accc52973
  base := (0xaa87ca22be8b05378eb1c71ef320ad746e1d3b628ba79b98 * Nat.pow 2 192 +
      0x59f741e082542a385502f25dbf55296c3a545e3872760ab7,
    0x3617de4a96262c6f5d9e98bf9292dc29f8f41dbd289a147c * Nat.pow 2 192 +
      0xe9da3113b5f0b8c00a60b1ce1d7e819d7a431d7c90ea0e5f)

/-- The curve of 521 bits. -/
def p521 : Curve where
  identifier := [0x2b, 0x81, 0x04, 0x00, 0x23]
  size := 66
  prime := Nat.pow 2 521 - 1
  order := (Nat.pow 2 265 - 6) * Nat.pow 2 256 +
    0x51868783bf2f966b7fcc0148f709a5d03bb5c9b8899c47aebb6fb71e91386409
  base := (0xc6858e06b70404e9cd9e3ecb662395b4429c648139053fb521f828af606b4d3dba *
      Nat.pow 2 256 + 0xa14b5e77efe75928fe1dc127a2ffa8de3348b3c1856a429bf97e7e31c2e5bd66,
    0x11839296a789a3bc0045c8a5fb42c7d1bd998f54449579b446817afbd17273e662c *
      Nat.pow 2 256 + 0x97ee72995ef42640c550b9013fad0761353c7086a272c24088be94769fd16650)

/-- All curves. -/
def all : List Curve := [p256, p384, p521]

/-- A power modulo a number, by the bits of the exponent. -/
def power (modulus base exponent : Nat) : Nat :=
  (Nat.toDigits 2 exponent).foldl
    (fun acc bit =>
      let square := acc * acc % modulus
      if bit = '1' then square * base % modulus else square)
    1

/-- A quotient modulo the prime. -/
def divide (c : Curve) (a b : Nat) : Nat := a * power c.prime b (c.prime - 2) % c.prime

/-- A difference modulo the prime. -/
def subtract (c : Curve) (a b : Nat) : Nat := (a + (c.prime - b % c.prime)) % c.prime

/-- A point; none is the one at infinity. -/
abbrev Point := Option (Nat × Nat)

/-- The third point on a line of given slope, on the other side of the axis. -/
def third (c : Curve) (slope : Nat) (p q : Nat × Nat) : Point :=
  let x := c.subtract (c.subtract (slope * slope) p.1) q.1
  some (x, c.subtract (slope * c.subtract p.1 x) p.2)

/-- The sum of two points. -/
def add (c : Curve) (p q : Point) : Point :=
  match p, q with
  | none, q => q
  | p, none => p
  | some p, some q =>
      if p.1 ≠ q.1 then c.third (c.divide (c.subtract q.2 p.2) (c.subtract q.1 p.1)) p q
      else if (p.2 + q.2) % c.prime = 0 then none
      else c.third (c.divide (3 * c.subtract (p.1 * p.1) 1) (2 * p.2)) p q

/-- A multiple of a point, by the bits of the factor. -/
def scale (c : Curve) (k : Nat) (p : Point) : Point :=
  (Nat.toDigits 2 k).foldl
    (fun acc bit =>
      let twice := c.add acc acc
      if bit = '1' then c.add twice p else twice)
    none

end Curve

end ConnectorKeeper
