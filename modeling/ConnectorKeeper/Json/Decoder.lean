import ConnectorKeeper.Json.Parser
import ConnectorKeeper.StringMap

/-!
# Decoding JSON values

A `Decoder` turns a tree into a value of the domain, or gives the first fault
in the order of the text.  A fault is a matter of the text itself (`unreadable`)
or of its shape (`misfit`): a caller may answer the two differently.  Decoders
look at all parts of a value and then keep the earliest fault, so that they can
name their fields in any order.

There are two kinds of structure.  A `record` is strict: a repeated field is a
fault, a missing one too unless it may be absent, and the fields may also come
as an array in their order.  A `latest` structure is lenient, and comes as an
object only: the last of repeated fields counts, and null is as good as absent.

Containers may nest 127 deep; values that nobody looks at may nest deeper.
-/

namespace ConnectorKeeper.Json

/-! ## Faults -/

/-- What is wrong. -/
inductive FaultKind where
  /-- The text is no JSON, or holds a string or number that cannot be read. -/
  | unreadable
  /-- The text is JSON of another shape. -/
  | misfit
deriving DecidableEq, Repr

/-- A fault and its place: the number of the member at each level, outermost
first.  What is missing from a container is missed at its end. -/
structure Fault where
  /-- The place in the text. -/
  place : List Nat
  /-- What is wrong there. -/
  kind : FaultKind
deriving DecidableEq, Repr

/-- A decoded value, or the first fault. -/
inductive Decoded (α : Type) where
  /-- The value. -/
  | value (a : α)
  /-- The first fault. -/
  | fault (f : Fault)

namespace Decoded

variable {α β : Type}

/-- The value, if there is one. -/
def toOption : Decoded α → Option α
  | .value a => some a
  | .fault _ => none

/-- A fault at the place itself. -/
def fail (kind : FaultKind) : Decoded α := .fault ⟨[], kind⟩

/-- A fault at the end of a container of so many members. -/
def failAt (index : Nat) (kind : FaultKind) : Decoded α := .fault ⟨[index], kind⟩

/-- The outcome at one member of a container. -/
def under (index : Nat) : Decoded α → Decoded α
  | .value a => .value a
  | .fault f => .fault ⟨index :: f.place, f.kind⟩

/-- The earlier of two faults, the first of two at one place. -/
def earlier (f g : Fault) : Fault := if g.place < f.place then g else f

/-- Both outcomes at once. -/
def apply (f : Decoded (α → β)) (a : Decoded α) : Decoded β :=
  match f, a with
  | .value f, .value a => .value (f a)
  | .value _, .fault e => .fault e
  | .fault e, .value _ => .fault e
  | .fault e, .fault e' => .fault (earlier e e')

instance : Applicative Decoded where
  pure := .value
  seq f a := apply f (a ())

@[simp] theorem pure_eq (a : α) : (pure a : Decoded α) = .value a := rfl
@[simp] theorem map_value (f : α → β) (a : α) : f <$> Decoded.value a = .value (f a) := rfl
@[simp] theorem seq_value (f : α → β) (a : α) :
    Decoded.value f <*> Decoded.value a = .value (f a) := rfl
@[simp] theorem seqRight_value (a : α) (b : Decoded β) :
    Decoded.value a *> b = b := by cases b <;> rfl
@[simp] theorem under_value (i : Nat) (a : α) : under i (.value a) = .value a := rfl

end Decoded

/-- Reads a value at a place below which containers may still nest so deep. -/
abbrev Decoder (α : Type) := Nat → Json → Decoded α

variable {α : Type}

/-- The outcome for a value of another shape.  A value that cannot be read is
a fault of the text. -/
def misfit : Json → Decoded α
  | .cut | .string none => .fail .unreadable
  | .number n => .fail (if n.finite then .misfit else .unreadable)
  | _ => .fail .misfit

namespace Decoder

/-! ## Scalars -/

/-- A text. -/
def string : Decoder String
  | _, .string (some s) => .value s
  | _, v => misfit v

/-- A truth value. -/
def boolean : Decoder Bool
  | _, .bool b => .value b
  | _, v => misfit v

/-- A whole number within bounds. -/
def integer (low high : Int) : Decoder Int
  | _, .number (.integer n) =>
      if low ≤ n && n ≤ high then .value n else misfit (.number (.integer n))
  | _, v => misfit v

/-- A natural number below a bound. -/
def natural (bound : Nat) : Decoder Nat := fun room v =>
  Int.toNat <$> integer 0 (bound - 1 : Int) room v

/-- A natural number of 16 bits. -/
def uint16 : Decoder Nat := natural 0x1_0000

/-- A natural number of 32 bits. -/
def uint32 : Decoder Nat := natural 0x1_0000_0000

/-- An integer of 32 bits. -/
def int32 : Decoder Int := integer (-0x8000_0000) 0x7fff_ffff

/-- An integer of 64 bits. -/
def int64 : Decoder Int := integer (-0x8000_0000_0000_0000) 0x7fff_ffff_ffff_ffff

/-- A text that a function can read. -/
def parsed (read : String → Option α) : Decoder α
  | _, .string (some s) => (read s).elim (.fail .misfit) .value
  | _, v => misfit v

/-- A value that may be null. -/
def nullable (d : Decoder α) : Decoder (Option α)
  | _, .null => .value none
  | room, v => some <$> d room v

/-- One of a few names, given as a text or as the key of an object with the
single member null.  Anything else is taken for a fault of the text. -/
def named (names : List (String × α)) : Decoder α
  | _, .string (some s) => pick s
  | _, .object ((some s, v) :: rest) =>
      let body : Decoded Unit :=
        match v with
        | .null => .value ()
        | v => misfit v
      let close : Decoded Unit := if rest.isEmpty then .value () else .failAt 1 .unreadable
      Decoded.under 0 (pick s) <* Decoded.under 0 body <* close
  | _, _ => .fail .unreadable
where
  /-- The value of a name. -/
  pick (s : String) : Decoded α :=
    (names.find? (·.1 = s)).elim (.fail .misfit) fun e => .value e.2

/-! ## Containers -/

/-- A container's outcome, a fault where it nests too deep. -/
def enter (room : Nat) (body : Nat → Decoded α) : Decoded α :=
  match room with
  | 0 => .fail .unreadable
  | room + 1 => body room

/-- The outcomes of a list of values, numbered from `index`. -/
def decodeItems (d : Json → Decoded α) : Nat → List Json → Decoded (List α)
  | _, [] => .value []
  | index, v :: rest => List.cons <$> (d v).under index <*> decodeItems d (index + 1) rest

/-- An array. -/
def list (d : Decoder α) : Decoder (List α)
  | room, .array items => enter room fun room => decodeItems (d room) 0 items
  | _, v => misfit v

/-- The text of a key. -/
def keyText : Option String → Decoded String
  | some s => .value s
  | none => .fail .unreadable

/-- The outcomes of members, numbered from `index`. -/
def decodeMembers (d : Json → Decoded α) :
    Nat → List (Option String × Json) → Decoded (List (String × α))
  | _, [] => .value []
  | index, (key, v) :: rest =>
      List.cons <$> (Prod.mk <$> (keyText key).under index <*> (d v).under index)
        <*> decodeMembers d (index + 1) rest

/-- An object with any keys; of a repeated key the last member counts. -/
def mapOf (d : Decoder α) : Decoder (StringMap α)
  | room, .object ms => enter room fun room => StringMap.ofList <$> decodeMembers (d room) 0 ms
  | _, v => misfit v

mutual
/-- A value of any shape, all of it readable. -/
def tree : Nat → Json → Decoded Json
  | _, .cut => .fail .unreadable
  | _, .string none => .fail .unreadable
  | _, .number n => if n.finite then .value (.number n) else .fail .unreadable
  | room, .array items =>
      match room with
      | 0 => .fail .unreadable
      | room + 1 => .array <$> treeItems room 0 items
  | room, .object ms =>
      match room with
      | 0 => .fail .unreadable
      | room + 1 => (fun ms => .object (sortedMembers ms)) <$> treeMembers room 0 ms
  | _, v => .value v

/-- Items of any shape. -/
def treeItems : Nat → Nat → List Json → Decoded (List Json)
  | _, _, [] => .value []
  | room, index, v :: rest =>
      List.cons <$> (tree room v).under index <*> treeItems room (index + 1) rest

/-- Members of any shape. -/
def treeMembers : Nat → Nat → List (Option String × Json) →
    Decoded (List (Option String × Json))
  | _, _, [] => .value []
  | room, index, (key, v) :: rest =>
      List.cons <$> (Prod.mk <$> (some <$> (keyText key).under index) <*> (tree room v).under index)
        <*> treeMembers room (index + 1) rest
end

end Decoder

/-! ## Strict structures -/

/-- The parts a strict structure is read from. -/
structure Fields where
  /-- The names of all fields, in their order. -/
  names : List String
  /-- How deep containers may nest below. -/
  room : Nat
  /-- The members, each with its number and key.  An item of an array has the
  key of the field in its place. -/
  parts : List (Nat × Option String × Json)
  /-- Whether the parts are items of an array. -/
  positional : Bool

namespace Fields

/-- The parts of one field. -/
def named (f : Fields) (name : String) : List (Nat × Json) :=
  f.parts.filterMap fun p => if p.2.1 = some name then some (p.1, p.2.2) else none

/-- The outcome of one field, given the outcome of its absence. -/
def field (f : Fields) (name : String) (d : Decoder α) (missing : Decoded α) : Decoded α :=
  match f.named name with
  | [] => missing
  | [(i, v)] => (d f.room v).under i
  | (i, v) :: (j, _) :: _ => (d f.room v).under i <* (.failAt j .misfit : Decoded Unit)

/-- A field that must be there. -/
def required (f : Fields) (name : String) (d : Decoder α) : Decoded α :=
  f.field name d (.failAt f.parts.length .misfit)

/-- A field that an object may omit, or have as null. -/
def optional (f : Fields) (name : String) (d : Decoder α) : Decoded (Option α) :=
  f.field name (Decoder.nullable d)
    (if f.positional then .failAt f.parts.length .misfit else .value none)

/-- A field that has a value when it is omitted. -/
def defaulted (f : Fields) (name : String) (default : α) (d : Decoder α) : Decoded α :=
  f.field name d (.value default)

/-- The outcome of what is no field: an object may have other members, as far
as they can be read, an array no further items. -/
def stray (f : Fields) : Decoded Unit :=
  let bad (p : Nat × Option String × Json) : Bool :=
    match p.2.1 with
    | none => true
    | some key => !f.names.contains key && p.2.2.hasCut
  match f.parts.find? bad with
  | some p => .failAt p.1 .unreadable
  | none => .value ()

end Fields

/-- Numbers the members of an object. -/
def numbered (index : Nat) : List (Option String × Json) → List (Nat × Option String × Json)
  | [] => []
  | m :: rest => (index, m) :: numbered (index + 1) rest

/-- Gives the items of an array the names of fields, in order. -/
def positions : List String → List Json → List (Option String × Json)
  | _, [] => []
  | [], v :: rest => (none, v) :: positions [] rest
  | name :: names, v :: rest => (some name, v) :: positions names rest

/-- A strict structure. -/
def Decoder.strict (names : List String) (build : Fields → Decoded α) : Decoder α
  | room, .object ms => Decoder.enter room fun room =>
      let f : Fields := ⟨names, room, numbered 0 ms, false⟩
      f.stray *> build f
  | room, .array items => Decoder.enter room fun room =>
      let f : Fields := ⟨names, room, numbered 0 (positions names items), true⟩
      f.stray *> build f
  | _, v => misfit v

/-! ## Lenient structures -/

namespace Fields

/-- The outcomes of all parts of a field, the last one's value. -/
def lastOf (d : Decoder α) (room : Nat) : Option α → List (Nat × Json) → Decoded (Option α)
  | previous, [] => .value previous
  | _, [(i, v)] => (Decoder.nullable d room v).under i
  | previous, (i, v) :: rest => (Decoder.nullable d room v).under i *> lastOf d room previous rest

/-- A field of a lenient structure. -/
def latest? (f : Fields) (name : String) (d : Decoder α) : Decoded (Option α) :=
  lastOf d f.room none (f.named name)

/-- A field of a lenient structure, with a value for its absence. -/
def latest (f : Fields) (name : String) (default : α) (d : Decoder α) : Decoded α :=
  (·.getD default) <$> f.latest? name d

/-- A field that, where it is given, must be one text. -/
def fixed (f : Fields) (name expected : String) : Decoded Unit :=
  (fun _ => ()) <$> outcomes (f.named name)
where
  /-- The outcomes of the parts of a field. -/
  outcomes : List (Nat × Json) → Decoded Unit
    | [] => .value ()
    | (i, v) :: rest =>
        (Decoder.parsed (fun s => if s = expected then some () else none) f.room v).under i
          *> outcomes rest

end Fields

/-- A lenient structure. -/
def Decoder.lenient (names : List String) (build : Fields → Decoded α) : Decoder α
  | room, .object ms => Decoder.enter room fun room =>
      let f : Fields := ⟨names, room, numbered 0 ms, false⟩
      f.stray *> build f
  | _, v => misfit v

/-! ## Texts -/

/-- How deep containers may nest. -/
def depthLimit : Nat := 127

/-- A value of a document that holds nothing else. -/
def Document.decode (d : Decoder α) (doc : Document) : Decoded α :=
  match d depthLimit doc.root with
  | .value a => if doc.complete then .value a else .fail .unreadable
  | .fault f => .fault f

/-- A value from a text. -/
def decodeText? (d : Decoder α) (s : Text.ByteText) : Option α :=
  ((Document.ofText s).decode d).toOption

/-- A value from a tree. -/
def decode? (d : Decoder α) (v : Json) : Option α := (d depthLimit v).toOption

end ConnectorKeeper.Json
