import ConnectorKeeper.Api.Client
import ConnectorKeeper.Leader.Settings
import ConnectorKeeper.Metadata

/-!
# Leases

One attempt to take or renew the lease.  A lease that is ours is renewed, one
that ran out is taken over, one that does not exist is created, and any other is
left alone.
-/

namespace ConnectorKeeper

open Json (Decoder)

/-- A lease, as far as an attempt looks at it. -/
structure Lease where
  /-- Who holds it. -/
  holder : Option String
  /-- Seconds until it runs out. -/
  durationSeconds : Option Int
  /-- How often it changed hands. -/
  transitions : Option Int
  /-- When it was last renewed. -/
  renewTime : Option Timestamp

namespace Lease

/-- The version of leases. -/
def version : String := "coordination.k8s.io/v1"

/-- Reads what a lease says. -/
def specDecoder : Decoder Lease :=
  Decoder.lenient
    ["acquireTime", "holderIdentity", "leaseDurationSeconds", "leaseTransitions",
      "preferredHolder", "renewTime", "strategy"]
    fun f => Lease.mk
      <$> f.latest? "holderIdentity" Decoder.string
      <*> f.latest? "leaseDurationSeconds" Decoder.int32
      <*> f.latest? "leaseTransitions" Decoder.int32
      <*> f.latest? "renewTime" Metadata.moment
      <* f.latest? "acquireTime" Metadata.moment
      <* f.latest? "preferredHolder" Decoder.string
      <* f.latest? "strategy" Decoder.string

/-- Reads a lease. -/
def decoder : Decoder Lease :=
  Decoder.lenient ["apiVersion", "kind", "metadata", "spec"] fun f =>
    f.fixed "apiVersion" version *> f.fixed "kind" "Lease" *>
      f.latest? "metadata" Metadata.decoder *>
      f.latest "spec" ⟨none, none, none, none⟩ specDecoder

/-- The path of the leases of a namespace. -/
def collection (namespaceName : String) : String :=
  s!"/apis/{version}/namespaces/{namespaceName}/leases"

/-- A lease, or a change of one, as a value. -/
def body (name : String) (spec : List (String × Json)) : Json :=
  .record [("apiVersion", .text version), ("kind", .text "Lease"),
    ("metadata", .record [("name", .text name)]), ("spec", .record spec)]

end Lease

/-- Why an attempt at a lease failed. -/
inductive LeaseError where
  /-- The lease could not be read, for a reason that the server described. -/
  | get (response : Api.ErrorResponse)
  /-- The lease could not be read otherwise. -/
  | api (error : Api.Error)
  /-- The lease could not be created. -/
  | create (error : Api.Error)
  /-- The lease could not be renewed. -/
  | renew (error : Api.Error)
  /-- The lease could not be taken over. -/
  | acquire (error : Api.Error)
  /-- The lease lacks a field. -/
  | traverse (key : String)
deriving DecidableEq

/-- The message of an error. -/
def LeaseError.message : LeaseError → String
  | .get e => s!"got unexpected Kubernetes API error: {e.message}: {e.reason}"
  | .api e => e.text
  | .create e => "could not create the Lease in Kubernetes: " ++ e.text
  | .renew e => "failed to renew the Lease in Kubernetes: " ++ e.text
  | .acquire e => "failed to acquire the Lease in Kubernetes: " ++ e.text
  | .traverse key => s!"failed to traverse the Lease spec from Kubernetes at key `{key}`"

/-- The outcome of an attempt that went well. -/
inductive Attempt where
  /-- The lease is ours; its holder as the server tells it. -/
  | leading (holder : Option String)
  /-- The lease is another replica's. -/
  | following
deriving DecidableEq

namespace Lease

/-- A character that stands for itself in the parameters of a query. -/
def plainParameter (c : Char) : Bool :=
  c.isAlphanum || c = '*' || c = '-' || c = '.' || c = '_'

/-- A parameter of a query. -/
def parameterText (s : String) : String :=
  String.ofList (s.toList.flatMap fun c =>
    if c = ' ' then ['+']
    else if plainParameter c then [c]
    else (String.utf8EncodeChar c).flatMap Text.Percent.encodeByte)

/-- The greatest length of the name of a writer. -/
def managerLimit : Nat := 128

/-- A change of the lease, made in our name. -/
def change (s : LeaderSettings) (spec : List (String × Json)) : Talk (Except Api.Error Lease) :=
  if managerLimit < s.holder.utf8ByteSize then
    .done (.error (.buildRequest
      "failed to validate request: Failed to validate PatchParams::field_manager!"))
  else
    Api.exchange decoder <|
      Api.objectRequest .patch (collection s.namespaceName) s.leaseName ""
        ("&fieldManager=" ++ parameterText s.holder) (some (body s.leaseName spec))

/-- The duration of our lease in whole seconds. -/
def durationJson (s : LeaderSettings) : Json := .int s.leaseDuration.seconds

/-- The outcome of an exchange that makes the lease ours. -/
def taken (blame : Api.Error → LeaseError) : Except Api.Error Lease → Except LeaseError Attempt
  | .ok lease => .ok (.leading lease.holder)
  | .error e => .error (blame e)

/-- Renews our lease. -/
def renew (s : LeaderSettings) : Talk (Except LeaseError Attempt) :=
  .ask .clock fun (now : Timestamp) =>
    Program.bind (change s [("renewTime", .text now.textMicros),
      ("leaseDurationSeconds", durationJson s)]) fun r => .done (taken .renew r)

/-- Takes over a lease that ran out. -/
def takeOver (s : LeaderSettings) (transitions : Int) : Talk (Except LeaseError Attempt) :=
  .ask .clock fun (now : Timestamp) =>
    Program.bind (change s [("acquireTime", .text now.textMicros),
      ("holderIdentity", .text s.holder), ("leaseDurationSeconds", durationJson s),
      ("leaseTransitions", .int (transitions + 1)), ("renewTime", .text now.textMicros)])
      fun r => .done (taken .acquire r)

/-- Creates the lease. -/
def create (s : LeaderSettings) : Talk (Except LeaseError Attempt) :=
  .ask .clock fun (now : Timestamp) =>
    let lease := body s.leaseName [("acquireTime", .text now.textMicros),
      ("holderIdentity", .text s.holder), ("leaseDurationSeconds", durationJson s),
      ("leaseTransitions", .int 0), ("renewTime", .text now.textMicros)]
    Program.bind (Api.exchange decoder (Api.createRequest (collection s.namespaceName) lease))
      fun r => .done (taken .create r)

/-- Deals with a lease that another replica holds. -/
def contend (s : LeaderSettings) (lease : Lease) : Talk (Except LeaseError Attempt) :=
  .ask .clock fun (now : Timestamp) =>
    match lease.renewTime, lease.durationSeconds with
    | none, _ => .done (.error (.traverse "spec.renewTime"))
    | some _, none => .done (.error (.traverse "spec.leaseDurationSeconds"))
    | some renewed, some duration =>
        if (renewed.addSeconds duration).isBefore now then
          match lease.transitions with
          | none => .done (.error (.traverse "spec.leaseTransitions"))
          | some n => takeOver s n
        else .done (.ok .following)

/-- One attempt at the lease. -/
def attempt (s : LeaderSettings) : Talk (Except LeaseError Attempt) :=
  let request := Api.objectRequest .get (collection s.namespaceName) s.leaseName "" "" none
  Program.bind (Api.exchange decoder request) fun
    | .ok lease =>
        match lease.holder with
        | none => .done (.error (.traverse "spec.holderIdentity"))
        | some holder => if holder = s.holder then renew s else contend s lease
    | .error (.api e) => if e.code = 404 then create s else .done (.error (.get e))
    | .error e => .done (.error (.api e))

end Lease

end ConnectorKeeper
