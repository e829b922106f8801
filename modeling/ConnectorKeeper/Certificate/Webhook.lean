import ConnectorKeeper.Certificate.Bundle

/-!
# The webhook's configuration

What the API server is told about webhooks: when to ask them, how to reach them
and which certificate to trust.  Only the certificate is changed here; all else
is written as it was read.
-/

namespace ConnectorKeeper

open Json (Decoder optional)

/-- A service that a webhook is reached by. -/
structure ServiceReference where
  /-- The name. -/
  name : String
  /-- The namespace. -/
  namespaceName : String
  /-- The path of requests. -/
  path : Option String
  /-- The port. -/
  port : Option Int

/-- How a webhook is reached. -/
structure ClientConfig where
  /-- The certificates to trust. -/
  caBundle : Option (List UInt8)
  /-- The service. -/
  service : Option ServiceReference
  /-- The address, where there is no service. -/
  url : Option String

/-- A condition on requests. -/
structure MatchCondition where
  /-- The condition. -/
  expression : String
  /-- Its name. -/
  name : String

/-- A requirement on labels. -/
structure LabelRequirement where
  /-- The label. -/
  key : String
  /-- How its value is compared. -/
  operator : String
  /-- What it is compared with. -/
  values : Option (List String)

/-- A choice of objects by their labels. -/
structure LabelSelector where
  /-- Requirements on labels. -/
  matchExpressions : Option (List LabelRequirement)
  /-- Labels with their values. -/
  matchLabels : Option (StringMap String)

/-- A choice of operations. -/
structure RuleWithOperations where
  /-- The groups. -/
  apiGroups : Option (List String)
  /-- The versions. -/
  apiVersions : Option (List String)
  /-- The operations. -/
  operations : Option (List String)
  /-- The resources. -/
  resources : Option (List String)
  /-- Whether objects of namespaces, of the cluster, or all are meant. -/
  scope : Option String

/-- One webhook. -/
structure Webhook where
  /-- The versions of reviews that it reads. -/
  admissionReviewVersions : List String
  /-- How it is reached. -/
  clientConfig : ClientConfig
  /-- What happens if it cannot be reached. -/
  failurePolicy : Option String
  /-- Conditions on requests. -/
  matchConditions : Option (List MatchCondition)
  /-- How rules are matched. -/
  matchPolicy : Option String
  /-- Its name. -/
  name : String
  /-- The namespaces that it is asked about. -/
  namespaceSelector : Option LabelSelector
  /-- The objects that it is asked about. -/
  objectSelector : Option LabelSelector
  /-- The operations that it is asked about. -/
  rules : Option (List RuleWithOperations)
  /-- Whether asking it changes anything. -/
  sideEffects : String
  /-- How long it may take. -/
  timeoutSeconds : Option Int

/-- The webhooks that are asked together. -/
structure WebhookConfiguration where
  /-- The metadata. -/
  metadata : Metadata
  /-- The webhooks. -/
  webhooks : Option (List Webhook)

namespace WebhookConfiguration

/-- A list of texts. -/
def texts : Decoder (List String) := Decoder.list Decoder.string

/-- A member that is there only if it has a value. -/
def member {α : Type} (key : String) (f : α → Json) (a : Option α) : List (String × Json) :=
  optional key (a.map f)

/-- Reads a `ServiceReference`. -/
def serviceDecoder : Decoder ServiceReference :=
  Decoder.lenient ["name", "namespace", "path", "port"] fun f => ServiceReference.mk
    <$> f.latest "name" "" Decoder.string
    <*> f.latest "namespace" "" Decoder.string
    <*> f.latest? "path" Decoder.string
    <*> f.latest? "port" Decoder.int32

/-- A `ServiceReference` as a value. -/
def serviceJson (s : ServiceReference) : Json :=
  .record ([("name", .text s.name), ("namespace", .text s.namespaceName)] ++
    member "path" .text s.path ++ member "port" .int s.port)

/-- Reads a `ClientConfig`. -/
def clientDecoder : Decoder ClientConfig :=
  Decoder.lenient ["caBundle", "service", "url"] fun f => ClientConfig.mk
    <$> f.latest? "caBundle" bytesDecoder
    <*> f.latest? "service" serviceDecoder
    <*> f.latest? "url" Decoder.string

/-- A `ClientConfig` as a value. -/
def clientJson (c : ClientConfig) : Json :=
  .record (member "caBundle" bytesJson c.caBundle ++ member "service" serviceJson c.service ++
    member "url" .text c.url)

/-- Reads a `MatchCondition`. -/
def conditionDecoder : Decoder MatchCondition :=
  Decoder.lenient ["expression", "name"] fun f => MatchCondition.mk
    <$> f.latest "expression" "" Decoder.string
    <*> f.latest "name" "" Decoder.string

/-- A `MatchCondition` as a value. -/
def conditionJson (c : MatchCondition) : Json :=
  .record [("expression", .text c.expression), ("name", .text c.name)]

/-- Reads a `LabelRequirement`. -/
def requirementDecoder : Decoder LabelRequirement :=
  Decoder.lenient ["key", "operator", "values"] fun f => LabelRequirement.mk
    <$> f.latest "key" "" Decoder.string
    <*> f.latest "operator" "" Decoder.string
    <*> f.latest? "values" texts

/-- A `LabelRequirement` as a value. -/
def requirementJson (r : LabelRequirement) : Json :=
  .record ([("key", .text r.key), ("operator", .text r.operator)] ++
    member "values" Metadata.textListJson r.values)

/-- Reads a `LabelSelector`. -/
def selectorDecoder : Decoder LabelSelector :=
  Decoder.lenient ["matchExpressions", "matchLabels"] fun f => LabelSelector.mk
    <$> f.latest? "matchExpressions" (Decoder.list requirementDecoder)
    <*> f.latest? "matchLabels" Metadata.textMap

/-- A `LabelSelector` as a value. -/
def selectorJson (s : LabelSelector) : Json :=
  .record (member "matchExpressions" (fun l => .array (l.map requirementJson)) s.matchExpressions ++
    member "matchLabels" Metadata.textMapJson s.matchLabels)

/-- Reads a `RuleWithOperations`. -/
def ruleDecoder : Decoder RuleWithOperations :=
  Decoder.lenient ["apiGroups", "apiVersions", "operations", "resources", "scope"] fun f =>
    RuleWithOperations.mk
      <$> f.latest? "apiGroups" texts
      <*> f.latest? "apiVersions" texts
      <*> f.latest? "operations" texts
      <*> f.latest? "resources" texts
      <*> f.latest? "scope" Decoder.string

/-- A `RuleWithOperations` as a value. -/
def ruleJson (r : RuleWithOperations) : Json :=
  .record (member "apiGroups" Metadata.textListJson r.apiGroups ++
    member "apiVersions" Metadata.textListJson r.apiVersions ++
    member "operations" Metadata.textListJson r.operations ++
    member "resources" Metadata.textListJson r.resources ++ member "scope" .text r.scope)

/-- Reads a `Webhook`. -/
def webhookDecoder : Decoder Webhook :=
  Decoder.lenient
    ["admissionReviewVersions", "clientConfig", "failurePolicy", "matchConditions", "matchPolicy",
      "name", "namespaceSelector", "objectSelector", "rules", "sideEffects", "timeoutSeconds"]
    fun f => Webhook.mk
      <$> f.latest "admissionReviewVersions" [] texts
      <*> f.latest "clientConfig" ⟨none, none, none⟩ clientDecoder
      <*> f.latest? "failurePolicy" Decoder.string
      <*> f.latest? "matchConditions" (Decoder.list conditionDecoder)
      <*> f.latest? "matchPolicy" Decoder.string
      <*> f.latest "name" "" Decoder.string
      <*> f.latest? "namespaceSelector" selectorDecoder
      <*> f.latest? "objectSelector" selectorDecoder
      <*> f.latest? "rules" (Decoder.list ruleDecoder)
      <*> f.latest "sideEffects" "" Decoder.string
      <*> f.latest? "timeoutSeconds" Decoder.int32

/-- A `Webhook` as a value. -/
def webhookJson (w : Webhook) : Json :=
  .record ([("admissionReviewVersions", Metadata.textListJson w.admissionReviewVersions),
      ("clientConfig", clientJson w.clientConfig)] ++
    member "failurePolicy" .text w.failurePolicy ++
    member "matchConditions" (fun l => .array (l.map conditionJson)) w.matchConditions ++
    member "matchPolicy" .text w.matchPolicy ++
    [("name", .text w.name)] ++
    member "namespaceSelector" selectorJson w.namespaceSelector ++
    member "objectSelector" selectorJson w.objectSelector ++
    member "rules" (fun l => .array (l.map ruleJson)) w.rules ++
    [("sideEffects", .text w.sideEffects)] ++
    member "timeoutSeconds" .int w.timeoutSeconds)

/-- The version of webhook configurations. -/
def version : String := "admissionregistration.k8s.io/v1"

/-- The kind of webhook configurations. -/
def kind : String := "ValidatingWebhookConfiguration"

/-- Reads a webhook configuration. -/
def decoder : Decoder WebhookConfiguration :=
  Decoder.lenient ["apiVersion", "kind", "metadata", "webhooks"] fun f =>
    f.fixed "apiVersion" version *> f.fixed "kind" kind *>
      (WebhookConfiguration.mk
        <$> f.latest "metadata" .empty Metadata.decoder
        <*> f.latest? "webhooks" (Decoder.list webhookDecoder))

/-- A webhook configuration as a value. -/
def toJson (c : WebhookConfiguration) : Json :=
  .record ([("apiVersion", .text version), ("kind", .text kind),
      ("metadata", c.metadata.toJson)] ++
    member "webhooks" (fun l => .array (l.map webhookJson)) c.webhooks)

/-- The path of webhook configurations. -/
def collection : String := s!"/apis/{version}/validatingwebhookconfigurations"

/-- A webhook that is trusted by the given certificates. -/
def trusting (ca : List UInt8) (w : Webhook) : Webhook :=
  { w with clientConfig := { w.clientConfig with caBundle := some ca } }

/-- The configuration with the given certificates trusted for every webhook of a
name; none if there is no such webhook. -/
def setCaBundle (c : WebhookConfiguration) (name : String) (ca : List UInt8) :
    Option WebhookConfiguration :=
  let webhooks := c.webhooks.getD []
  if webhooks.any (·.name = name) then
    some { c with webhooks := some (webhooks.map fun w => if w.name = name then trusting ca w else w) }
  else none

end WebhookConfiguration

end ConnectorKeeper
