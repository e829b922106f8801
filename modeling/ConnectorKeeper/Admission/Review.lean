import ConnectorKeeper.Record.Codec

/-!
# Admission reviews

The questions that the API server asks before it stores a record, and the form
of the answers.
-/

namespace ConnectorKeeper.Admission

open Json (Decoder Decoded)

/-- What is to be done with a record. -/
inductive Operation where
  /-- It is new. -/
  | create
  /-- It is changed. -/
  | update
  /-- It is removed. -/
  | delete
  /-- One connects to it. -/
  | connect
deriving DecidableEq, Repr

/-- A question about one operation, as far as the answer depends on it. -/
structure Request where
  /-- What tells the question from others. -/
  uid : String
  /-- What is to be done. -/
  operation : Operation
  /-- The record as it is to be. -/
  object : Option Record
  /-- The record as it is. -/
  oldObject : Option Record

/-- A review as it is sent. -/
structure Review where
  /-- The version of the review. -/
  apiVersion : String
  /-- The kind of the review. -/
  kind : String
  /-- The question, if there is one. -/
  request : Option Request

/-- Reads a value that has to be well-formed and is not kept. -/
def checked {α : Type} (d : Decoder α) : Decoder Unit := fun room v => (fun _ => ()) <$> d room v

/-- Reads three texts that name a kind or a resource; `more` are further texts. -/
def groupVersion (last : String) (more : List String) : Decoder Unit :=
  Decoder.strict (["group", "version", last] ++ more) fun f =>
    f.required "group" (checked Decoder.string) *>
      f.required "version" (checked Decoder.string) *>
      f.required last (checked Decoder.string) *>
      more.foldl (fun d name => d *> f.defaulted name () (checked Decoder.string)) (.value ())

/-- Reads the name of a kind. -/
def kindName : Decoder Unit := groupVersion "kind" []

/-- Reads the name of a resource. -/
def resourceName : Decoder Unit := groupVersion "resource" ["apiVersion"]

/-- Reads who asks. -/
def userInfo : Decoder Unit :=
  Decoder.lenient ["extra", "groups", "uid", "username"] fun f =>
    f.latest "extra" () (checked (Decoder.mapOf (Decoder.list Decoder.string))) *>
      f.latest "groups" () (checked (Decoder.list Decoder.string)) *>
      f.latest "uid" () (checked Decoder.string) *>
      f.latest "username" () (checked Decoder.string)

/-- Reads an operation. -/
def Operation.decoder : Decoder Operation :=
  Decoder.named
    [("CREATE", .create), ("UPDATE", .update), ("DELETE", .delete), ("CONNECT", .connect)]

/-- Reads a question.  The parts that the answer does not depend on have to be
well-formed too. -/
def Request.decoder : Decoder Request :=
  Decoder.strict
    ["uid", "kind", "resource", "subResource", "requestKind", "requestResource",
      "requestSubResource", "name", "namespace", "operation", "userInfo", "object", "oldObject",
      "dryRun", "options"]
    fun f =>
      let text (name : String) : Decoded Unit :=
        f.defaulted name () (checked (Decoder.nullable Decoder.string))
      Request.mk
        <$> f.required "uid" Decoder.string
        <*> f.required "operation" Operation.decoder
        <*> f.optional "object" Record.decoder
        <*> f.defaulted "oldObject" none (Decoder.nullable Record.decoder)
        <* f.required "kind" kindName
        <* f.required "resource" resourceName
        <* text "subResource"
        <* f.defaulted "requestKind" () (checked (Decoder.nullable kindName))
        <* f.defaulted "requestResource" () (checked (Decoder.nullable resourceName))
        <* text "requestSubResource"
        <* f.defaulted "name" () (checked Decoder.string)
        <* text "namespace"
        <* f.required "userInfo" userInfo
        <* f.defaulted "dryRun" () (checked Decoder.boolean)
        <* f.optional "options" (checked Decoder.tree)

/-- Reads a cause within the outcome of an answer. -/
def outcomeCause : Decoder Unit :=
  Decoder.strict ["reason", "message", "field"] fun f =>
    f.defaulted "reason" () (checked Decoder.string) *>
      f.defaulted "message" () (checked Decoder.string) *>
      f.defaulted "field" () (checked Decoder.string)

/-- Reads the details within the outcome of an answer. -/
def outcomeDetails : Decoder Unit :=
  Decoder.strict ["name", "group", "kind", "uid", "causes", "retryAfterSeconds"] fun f =>
    f.defaulted "name" () (checked Decoder.string) *>
      f.defaulted "group" () (checked Decoder.string) *>
      f.defaulted "kind" () (checked Decoder.string) *>
      f.defaulted "uid" () (checked Decoder.string) *>
      f.defaulted "causes" () (checked (Decoder.list outcomeCause)) *>
      f.defaulted "retryAfterSeconds" () (checked (Decoder.uint32))

/-- Reads the outcome within an answer. -/
def outcome : Decoder Unit :=
  Decoder.strict ["status", "code", "message", "reason", "details"] fun f =>
    f.defaulted "status" ()
        (checked (Decoder.nullable (Decoder.named [("Success", ()), ("Failure", ())]))) *>
      f.defaulted "code" () (checked (Decoder.uint16)) *>
      f.defaulted "message" () (checked Decoder.string) *>
      f.defaulted "reason" () (checked Decoder.string) *>
      f.defaulted "details" () (checked (Decoder.nullable outcomeDetails))

/-- Reads an answer, which a review may carry and nobody looks at. -/
def carriedAnswer : Decoder Unit :=
  Decoder.strict
    ["uid", "allowed", "status", "patch", "patchType", "auditAnnotations", "warnings"] fun f =>
    f.required "uid" (checked Decoder.string) *>
      f.required "allowed" (checked Decoder.boolean) *>
      f.required "status" outcome *>
      ((fun _ => ()) <$> f.optional "patch" (Decoder.list (Decoder.natural 256))) *>
      ((fun _ => ()) <$> f.optional "patchType" (Decoder.named [("JSONPatch", ())])) *>
      ((fun _ => ()) <$> f.optional "auditAnnotations" (Decoder.mapOf Decoder.string)) *>
      ((fun _ => ()) <$> f.optional "warnings" (Decoder.list Decoder.string))

/-- Reads a review.  It comes as an object only.  All members are read when they
come, but version and kind are judged last. -/
def Review.decoder : Decoder Review
  | room, .object ms => Decoder.enter room fun room =>
      let f : Json.Fields := ⟨["request", "response"], room, Json.numbered 0 ms, false⟩
      let others := f.parts.filter fun p =>
        p.2.1 ≠ some "request" && p.2.1 ≠ some "response"
      let readable : Decoded Unit := others.foldl
        (fun d p => d <* ((Decoder.keyText p.2.1).under p.1 *> (Decoder.tree room p.2.2).under p.1))
        (.value ())
      let final (name : String) : Decoded String :=
        let atEnd : Decoded String := .failAt f.parts.length .misfit
        match f.named name with
        | [(_, .string (some s))] => .value s
        | _ => atEnd
      Review.mk <$> final "apiVersion" <*> final "kind"
        <*> f.optional "request" Request.decoder
        <* f.optional "response" carriedAnswer
        <* readable
  | _, v => Json.misfit v

/-- An answer to a review. -/
structure Answer where
  /-- The version of the review. -/
  apiVersion : String
  /-- The kind of the review. -/
  kind : String
  /-- The question that is answered. -/
  uid : String
  /-- Whether the operation may go on. -/
  allowed : Bool
  /-- The outcome as a word, empty if it is left out. -/
  status : String
  /-- Why it may not go on, for people, empty if it is left out. -/
  message : String
  /-- Why it may not go on, as a word, empty if it is left out. -/
  reason : String
deriving DecidableEq

/-- A text that is left out when it is empty. -/
def unlessEmpty (key text : String) : List (String × Json) :=
  if text = "" then [] else [(key, .text text)]

/-- An answer as a value. -/
def Answer.toJson (a : Answer) : Json :=
  .record [("apiVersion", .text a.apiVersion), ("kind", .text a.kind),
    ("response", .record [("uid", .text a.uid), ("allowed", .bool a.allowed),
      ("status", .record (unlessEmpty "status" a.status ++ unlessEmpty "message" a.message ++
        unlessEmpty "reason" a.reason))])]

end ConnectorKeeper.Admission
