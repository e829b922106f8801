import ConnectorKeeper.Admission.Decision

/-!
# The webhook's route

Which requests reach the admission decision: a `POST` to one path with a body
that is declared to be JSON, is JSON, and has the shape of a review.
-/

namespace ConnectorKeeper.Admission

/-! ## Media types -/

/-- A character of a token in a media type. -/
def isTokenChar (c : Char) : Bool :=
  c.isAlphanum || "!#$%&'*+-.^_`|~".toList.contains c

/-- A character within quotation marks in a media type. -/
def isQuotable (c : Char) : Bool := 0x20 ≤ c.toNat && c.toNat < 0x7F

/-- Whether parameters of a media type are well-formed, from the start of one on.
Spaces may stand before a name and after a quoted value. -/
def parametersFit : Nat → List Char → Bool
  | 0, _ => false
  | fuel + 1, s =>
      match s.dropWhile (· = ' ') with
      | [] => true
      | s =>
          let name := s.takeWhile isTokenChar
          match s.drop name.length with
          | '=' :: '"' :: rest =>
              let value := rest.takeWhile fun c => isQuotable c && c ≠ '"'
              match rest.drop value.length with
              | '"' :: after =>
                  !name.isEmpty && !value.isEmpty &&
                    match after.dropWhile (· = ' ') with
                    | [] => true
                    | ';' :: more => parametersFit fuel more
                    | _ => false
              | _ => false
          | '=' :: rest =>
              let value := rest.takeWhile isTokenChar
              match rest.drop value.length with
              | [] => !name.isEmpty
              | ';' :: more => !name.isEmpty && !value.isEmpty && parametersFit fuel more
              | _ => false
          | _ => false

/-- The text before and after the last plus sign that is not at the start. -/
def splitSuffix (s : List Char) : List Char × Option (List Char) :=
  let after := (s.reverse.takeWhile (· ≠ '+')).reverse
  if after.length + 1 < s.length then (s.take (s.length - after.length - 1), some after)
  else (s, none)

/-- Whether a media type is that of JSON: `application/json`, or any subtype of
`application` that ends in `+json`. -/
def isJsonType (mediaType : String) : Bool :=
  let s := mediaType.toLower.toList
  let top := s.takeWhile isTokenChar
  match s.drop top.length with
  | '/' :: rest =>
      let sub := rest.takeWhile isTokenChar
      let fits :=
        match rest.drop sub.length with
        | [] => true
        | ';' :: parameters => !sub.isEmpty && parametersFit (s.length + 1) parameters
        | _ => false
      let (subtype, suffix) := splitSuffix sub
      fits && top = "application".toList &&
        (subtype = "json".toList || suffix = some "json".toList)
  | _ => false

/-! ## The route -/

/-- The path that the API server sends reviews to. -/
def webhookPath : String := "/validate-dbc"

/-- An HTTP request to the webhook, with a body within the size limit of the server.  A
longer one (of more than 2 MB) is refused with status 413 while it is read, if it would be
read at all. -/
structure Delivery where
  /-- The method. -/
  method : String
  /-- The path, with the query. -/
  target : String
  /-- The declared type of the body. -/
  contentType : Option String
  /-- The body. -/
  body : Text.ByteText

/-- The path of a target, without its query. -/
def pathOf (target : String) : String := String.ofList (target.toList.takeWhile (· ≠ '?'))

/-- The status of a request that does not reach the decision. -/
def faultStatus : Json.FaultKind → Nat
  | .unreadable => 400
  | .misfit => 422

/-- The review that a request carries, or the status that refuses it. -/
def Delivery.review (d : Delivery) : Except Nat Review :=
  if pathOf d.target ≠ webhookPath then .error 404
  else if d.method ≠ "POST" then .error 405
  else if !d.contentType.any isJsonType then .error 415
  else match (Json.Document.ofText d.body).decode Review.decoder with
    | .value review => .ok review
    | .fault f => .error (faultStatus f.kind)

/-- The answer of the webhook, or the status that refuses the request. -/
def Delivery.answer (d : Delivery) : Talk (Except Nat Answer) :=
  match d.review with
  | .error status => .done (.error status)
  | .ok review => Program.bind review.answer fun a => .done (.ok a)

end ConnectorKeeper.Admission
