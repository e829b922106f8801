import ConnectorKeeper.Json.Decoder
import ConnectorKeeper.Timestamp

/-!
# Object metadata

The metadata that every object of the API server carries.  All of it may be
absent, and what is absent is not written.
-/

namespace ConnectorKeeper

open Json (Decoder Decoded optional)

/-- What one writer owns of an object. -/
structure Metadata.ManagedFields where
  /-- The version the fields are named in. -/
  apiVersion : Option String
  /-- The form of `fields`. -/
  fieldsType : Option String
  /-- The fields, as a tree of their names. -/
  fields : Option Json
  /-- The writer. -/
  manager : Option String
  /-- How the writer wrote. -/
  operation : Option String
  /-- The part of the object that was written. -/
  subresource : Option String
  /-- When it was written. -/
  time : Option Timestamp

/-- An object that another one depends on. -/
structure Metadata.OwnerReference where
  /-- The owner's version. -/
  apiVersion : String
  /-- Whether the owner's deletion waits for this object. -/
  blockOwnerDeletion : Option Bool
  /-- Whether the owner manages this object. -/
  controller : Option Bool
  /-- The owner's kind. -/
  kind : String
  /-- The owner's name. -/
  name : String
  /-- The owner's identity. -/
  uid : String

/-- The metadata of an object. -/
structure Metadata where
  /-- Notes, by key. -/
  annotations : Option (StringMap String)
  /-- When the object came into being. -/
  creationTimestamp : Option Timestamp
  /-- Seconds granted for deletion. -/
  deletionGracePeriodSeconds : Option Int
  /-- When deletion was asked for. -/
  deletionTimestamp : Option Timestamp
  /-- Who has to agree before the object may go. -/
  finalizers : Option (List String)
  /-- The start of a name that the server completes. -/
  generateName : Option String
  /-- The number of the desired state. -/
  generation : Option Int
  /-- Marks, by key. -/
  labels : Option (StringMap String)
  /-- What each writer owns. -/
  managedFields : Option (List Metadata.ManagedFields)
  /-- The name. -/
  name : Option String
  /-- The namespace. -/
  namespaceName : Option String
  /-- What the object depends on. -/
  ownerReferences : Option (List Metadata.OwnerReference)
  /-- The version of the object, as the server counts. -/
  resourceVersion : Option String
  /-- A former address. -/
  selfLink : Option String
  /-- The identity. -/
  uid : Option String

namespace Metadata

/-- Metadata without anything. -/
def empty : Metadata :=
  ⟨none, none, none, none, none, none, none, none, none, none, none, none, none, none, none⟩

instance : Inhabited Metadata := ⟨empty⟩

/-- A map of texts. -/
def textMap : Decoder (StringMap String) := Decoder.mapOf Decoder.string

/-- A moment. -/
def moment : Decoder Timestamp := Decoder.parsed Timestamp.parse?

/-- A map of texts as a value. -/
def textMapJson (m : StringMap String) : Json :=
  .record (m.toList.map fun e => (e.1, .text e.2))

/-- A list of texts as a value. -/
def textListJson (l : List String) : Json := .array (l.map .text)

/-- Reads `ManagedFields`. -/
def ManagedFields.decoder : Decoder ManagedFields :=
  Decoder.lenient
    ["apiVersion", "fieldsType", "fieldsV1", "manager", "operation", "subresource", "time"]
    fun f => ManagedFields.mk
      <$> f.latest? "apiVersion" Decoder.string
      <*> f.latest? "fieldsType" Decoder.string
      <*> f.latest? "fieldsV1" Decoder.tree
      <*> f.latest? "manager" Decoder.string
      <*> f.latest? "operation" Decoder.string
      <*> f.latest? "subresource" Decoder.string
      <*> f.latest? "time" moment

/-- `ManagedFields` as a value. -/
def ManagedFields.toJson (m : ManagedFields) : Json :=
  .record <|
    optional "apiVersion" (m.apiVersion.map .text) ++
    optional "fieldsType" (m.fieldsType.map .text) ++
    optional "fieldsV1" m.fields ++
    optional "manager" (m.manager.map .text) ++
    optional "operation" (m.operation.map .text) ++
    optional "subresource" (m.subresource.map .text) ++
    optional "time" (m.time.map fun t => .text t.text)

/-- Reads an `OwnerReference`. -/
def OwnerReference.decoder : Decoder OwnerReference :=
  Decoder.lenient ["apiVersion", "blockOwnerDeletion", "controller", "kind", "name", "uid"]
    fun f => OwnerReference.mk
      <$> f.latest "apiVersion" "" Decoder.string
      <*> f.latest? "blockOwnerDeletion" Decoder.boolean
      <*> f.latest? "controller" Decoder.boolean
      <*> f.latest "kind" "" Decoder.string
      <*> f.latest "name" "" Decoder.string
      <*> f.latest "uid" "" Decoder.string

/-- An `OwnerReference` as a value. -/
def OwnerReference.toJson (o : OwnerReference) : Json :=
  .record <|
    [("apiVersion", .text o.apiVersion)] ++
    optional "blockOwnerDeletion" (o.blockOwnerDeletion.map .bool) ++
    optional "controller" (o.controller.map .bool) ++
    [("kind", .text o.kind), ("name", .text o.name), ("uid", .text o.uid)]

/-- Reads metadata. -/
def decoder : Decoder Metadata :=
  Decoder.lenient
    ["annotations", "creationTimestamp", "deletionGracePeriodSeconds", "deletionTimestamp",
      "finalizers", "generateName", "generation", "labels", "managedFields", "name", "namespace",
      "ownerReferences", "resourceVersion", "selfLink", "uid"]
    fun f => Metadata.mk
      <$> f.latest? "annotations" textMap
      <*> f.latest? "creationTimestamp" moment
      <*> f.latest? "deletionGracePeriodSeconds" Decoder.int64
      <*> f.latest? "deletionTimestamp" moment
      <*> f.latest? "finalizers" (Decoder.list Decoder.string)
      <*> f.latest? "generateName" Decoder.string
      <*> f.latest? "generation" Decoder.int64
      <*> f.latest? "labels" textMap
      <*> f.latest? "managedFields" (Decoder.list ManagedFields.decoder)
      <*> f.latest? "name" Decoder.string
      <*> f.latest? "namespace" Decoder.string
      <*> f.latest? "ownerReferences" (Decoder.list OwnerReference.decoder)
      <*> f.latest? "resourceVersion" Decoder.string
      <*> f.latest? "selfLink" Decoder.string
      <*> f.latest? "uid" Decoder.string

/-- Metadata as a value. -/
def toJson (m : Metadata) : Json :=
  .record <|
    optional "annotations" (m.annotations.map textMapJson) ++
    optional "creationTimestamp" (m.creationTimestamp.map fun t => .text t.text) ++
    optional "deletionGracePeriodSeconds" (m.deletionGracePeriodSeconds.map .int) ++
    optional "deletionTimestamp" (m.deletionTimestamp.map fun t => .text t.text) ++
    optional "finalizers" (m.finalizers.map textListJson) ++
    optional "generateName" (m.generateName.map .text) ++
    optional "generation" (m.generation.map .int) ++
    optional "labels" (m.labels.map textMapJson) ++
    optional "managedFields"
      (m.managedFields.map fun l => .array (l.map ManagedFields.toJson)) ++
    optional "name" (m.name.map .text) ++
    optional "namespace" (m.namespaceName.map .text) ++
    optional "ownerReferences"
      (m.ownerReferences.map fun l => .array (l.map OwnerReference.toJson)) ++
    optional "resourceVersion" (m.resourceVersion.map .text) ++
    optional "selfLink" (m.selfLink.map .text) ++
    optional "uid" (m.uid.map .text)

end Metadata

end ConnectorKeeper
