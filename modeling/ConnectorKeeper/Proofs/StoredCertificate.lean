import ConnectorKeeper.Certificate.Bootstrap
import ConnectorKeeper.Proofs.Configurations
import ConnectorKeeper.Proofs.Encodings
import ConnectorKeeper.Proofs.Percent
import ConnectorKeeper.Proofs.WrittenMembers

/-!
# Certificates that are stored and published

A certificate that the set-up stores is read from the secret again
(`Secret.bundle_of_ofBundle`), and one that it publishes is the one to trust when
the configuration is read (`WebhookConfiguration.Trusts.of_toJson`).
-/

namespace ConnectorKeeper

open Json (Decoded Decoder Fields writtenAt decode?)

/-! ## Texts and bytes -/

theorem bytesDecoder_bytesJson (room : Nat) (bytes : List UInt8) :
    bytesDecoder room (bytesJson bytes) = .value bytes := by
  show (Text.Base64.decode? _).elim _ _ = _
  rw [Text.Base64.decode?_encode]
  rfl

theorem bytesOrNull_bytesJson (room : Nat) (bytes : List UInt8) :
    bytesOrNull room (bytesJson bytes) = .value bytes := by
  have hnull : bytesJson bytes ≠ .null := Json.text_ne_null _
  rw [bytesOrNull, Fields.nullable_of_ne hnull, bytesDecoder_bytesJson]
  rfl

theorem Text.utf8_ne_nil {s : String} (h : s ≠ "") : Text.utf8 s ≠ [] := by
  intro hnil
  exact h (Text.utf8_inj (hnil.trans (by rfl)))

/-! ## Secrets -/

namespace Secret

/-- An entry that holds the bytes of a text is the text. -/
theorem entry_of_get? {secret : Secret} {data : StringMap (List UInt8)} {name text : String}
    (hdata : secret.data = some data) (hget : data.get? name = some (Text.utf8 text))
    (htext : text ≠ "") : secret.entry name = some text := by
  have hne := Text.utf8_ne_nil htext
  rw [entry, hdata, Option.bind_some, hget]
  split
  · next heq => cases heq
  · next heq => exact absurd (Option.some.inj heq) hne
  · next heq =>
    obtain rfl := Option.some.inj heq
    rw [Text.ByteText.ofBytes_utf8, Text.ByteText.lossy_ofString]

/-- The data of a secret that is read. -/
theorem data_of_decoder {room : Nat} {ms : List (Option String × Json)} {secret : Secret} {v : Json}
    (h : decoder room (.object ms) = .value secret) (hdata : Json.valuesAt "data" ms = [v])
    (hnull : v ≠ .null) : ∃ below data, room = below + 1 ∧
      Decoder.mapOf bytesOrNull below v = .value data ∧ secret.data = some data := by
  obtain ⟨below, ms', rfl, hms, hbuild⟩ := Decoder.lenient_eq_value h
  cases hms
  simp only [Decoded.seqRight_eq_value_iff, Decoded.seqLeft_eq_value_iff,
    Decoded.map_eq_value_iff] at hbuild
  obtain ⟨-, ⟨⟨⟨⟨data, hread, rfl⟩, -⟩, -⟩, -⟩, -⟩ := hbuild
  rw [Fields.latest?_eq_value_iff ((Fields.values_numbered ..).trans hdata),
    Fields.nullable_of_ne hnull, Decoded.map_eq_value_iff] at hread
  obtain ⟨data, hdata, rfl⟩ := hread
  exact ⟨below, data, rfl, hdata, rfl⟩

/-- A certificate is read from the secret that was made of it. -/
theorem bundle_of_ofBundle {s : CertificateSettings} {b : CertificateBundle} {secret : Secret}
    (h : decode? decoder (ofBundle s b) = some secret) (hcertificate : b.certificate ≠ "")
    (hkey : b.key ≠ "") : secret.bundle = some b := by
  rw [decode?, Decoded.toOption_eq_some_iff, ofBundle, Json.record_eq] at h
  obtain ⟨below, data, hbelow, hread, hdata⟩ := data_of_decoder h
    ((Json.valuesAt_asMembers ..).trans (by simp; rfl)) (Json.record_ne_null _)
  have hmap : data = .ofList [(certificateEntry, Text.utf8 b.certificate),
      (keyEntry, Text.utf8 b.key)] := by
    obtain ⟨below, rfl⟩ : ∃ n, below = n + 1 := ⟨125, by cases hbelow; rfl⟩
    rw [Json.record_eq] at hread
    simp only [Json.asMembers, List.map_cons, List.map_nil, Decoder.mapOf, Decoder.enter,
      Decoder.decodeMembers, bytesOrNull_bytesJson, Decoder.keyText] at hread
    exact (Decoded.value.inj hread).symm
  have hentry : secret.entry certificateEntry = some b.certificate :=
    entry_of_get? hdata (by simp [hmap, StringMap.ofList, StringMap.get?_insert, certificateEntry,
      keyEntry]) hcertificate
  have hkeyEntry : secret.entry keyEntry = some b.key :=
    entry_of_get? hdata (by simp [hmap, StringMap.ofList, StringMap.get?_insert]) hkey
  rw [bundle, hentry, hkeyEntry]
  rfl

end Secret

/-! ## Configurations -/

namespace WebhookConfiguration

variable {c changed written : WebhookConfiguration} {name : String} {ca : List UInt8}

theorem setCaBundle_eq_none_iff :
    c.setCaBundle name ca = none ↔ ∀ w ∈ c.webhooks.getD [], w.name ≠ name := by
  simp [setCaBundle]

/-- Every entry of the name is changed, and nothing else. -/
theorem setCaBundle_eq_some_iff : c.setCaBundle name ca = some changed ↔
    ∃ webhooks, c.webhooks = some webhooks ∧ (∃ w ∈ webhooks, w.name = name) ∧
      changed = { c with
        webhooks := some (webhooks.map fun w => if w.name = name then trusting ca w else w) } := by
  unfold setCaBundle
  cases hwebhooks : c.webhooks with
  | none => simp
  | some webhooks =>
    simp only [Option.getD_some, List.any_eq_true, decide_eq_true_eq, Option.some.injEq]
    constructor
    · intro h
      split at h
      · next hany => exact ⟨webhooks, rfl, hany, (Option.some.inj h).symm⟩
      · cases h
    · rintro ⟨_, rfl, hany, rfl⟩
      rw [if_pos hany]

/-- Every webhook of a name trusts the given certificates, and there is one. -/
def Trusts (c : WebhookConfiguration) (name : String) (ca : List UInt8) : Prop :=
  ∃ webhooks, c.webhooks = some webhooks ∧ (∃ w ∈ webhooks, w.name = name) ∧
    ∀ w ∈ webhooks, w.name = name → w.clientConfig.caBundle = some ca

theorem trusts_of_setCaBundle (h : c.setCaBundle name ca = some changed) :
    changed.Trusts name ca := by
  obtain ⟨webhooks, -, ⟨w, hw, hname⟩, rfl⟩ := setCaBundle_eq_some_iff.1 h
  refine ⟨_, rfl, ⟨trusting ca w, List.mem_map.2 ⟨w, hw, if_pos hname⟩, hname⟩, ?_⟩
  intro w' hw' hname'
  obtain ⟨w, -, rfl⟩ := List.mem_map.1 hw'
  split at hname'
  · next h => rw [if_pos h, trusting]
  · next h => exact absurd hname' h

/-- The certificates of a webhook that are read are those that were written. -/
theorem caBundle_of_clientJson {room : Nat} {client read : ClientConfig}
    (h : clientDecoder room (clientJson client) = .value read) :
    read.caBundle = client.caBundle := by
  obtain ⟨below, ms, rfl, hms, hbuild⟩ := Decoder.lenient_eq_value h
  rw [clientJson, Json.record_eq] at hms
  cases hms
  simp only [Decoded.seq_eq_value_iff, Decoded.map_eq_value_iff] at hbuild
  obtain ⟨_, _, ⟨_, _, ⟨bytes, hbytes, rfl⟩, -, rfl⟩, -, rfl⟩ := hbuild
  have hwritten := hbytes.symm.trans (Fields.latest?_asMembers bytesJson
    client.caBundle (by simp [member]) (fun _ _ => Json.text_ne_null _) fun bytes _ =>
      bytesDecoder_bytesJson below bytes)
  exact Decoded.value.inj hwritten

/-- A webhook that is read has the name and the certificates that were written. -/
theorem name_and_caBundle_of_webhookJson {room : Nat} {w read : Webhook}
    (h : webhookDecoder room (webhookJson w) = .value read) :
    read.name = w.name ∧ read.clientConfig.caBundle = w.clientConfig.caBundle := by
  obtain ⟨below, ms, rfl, hms, hbuild⟩ := Decoder.lenient_eq_value h
  rw [webhookJson, Json.record_eq] at hms
  cases hms
  simp only [Decoded.seq_eq_value_iff, Decoded.map_eq_value_iff] at hbuild
  obtain ⟨_, _, ⟨_, _, ⟨_, _, ⟨_, _, ⟨_, _, ⟨_, name, ⟨_, _, ⟨_, _, ⟨_, _, ⟨_, client, ⟨_, _, rfl⟩,
    hclient, rfl⟩, -, rfl⟩, -, rfl⟩, -, rfl⟩, hname, rfl⟩, -, rfl⟩, -, rfl⟩, -, rfl⟩, -, rfl⟩, -,
    rfl⟩ := hbuild
  rw [Fields.latest_asMembers_iff (v := .text w.name) (by simp [member]) (Json.text_ne_null _)]
    at hname
  rw [Fields.latest_asMembers_iff (v := clientJson w.clientConfig) (by simp [member])
    (Json.record_ne_null _)] at hclient
  exact ⟨(Decoded.value.inj hname).symm, caBundle_of_clientJson hclient⟩

/-- What trusts a certificate does so when it is written and read. -/
theorem Trusts.of_toJson (h : c.Trusts name ca) (hread : decode? decoder c.toJson = some written) :
    written.Trusts name ca := by
  obtain ⟨webhooks, hwebhooks, ⟨w, hw, hname⟩, htrust⟩ := h
  rw [decode?, Decoded.toOption_eq_some_iff, toJson, Json.record_eq] at hread
  obtain ⟨below, ms, hbelow, hms, hbuild⟩ := Decoder.lenient_eq_value hread
  cases hms
  simp only [Decoded.seqRight_eq_value_iff, Decoded.seq_eq_value_iff, Decoded.map_eq_value_iff]
    at hbuild
  obtain ⟨-, _, _, ⟨_, -, rfl⟩, hlist, rfl⟩ := hbuild
  obtain ⟨below, rfl⟩ : ∃ n, below = n + 1 := ⟨125, (Nat.succ.inj hbelow).symm⟩
  rw [Fields.latest?_asMembers_iff (v := .array (webhooks.map webhookJson))
    (by simp [member, hwebhooks]) (Json.array_ne_null _)] at hlist
  obtain ⟨read, hitems, rfl⟩ := hlist
  rw [Decoder.list_array_eq_value_iff, List.forall₂_map_left_iff] at hitems
  have hsame : List.Forall₂ (fun w r => r.name = w.name ∧
      r.clientConfig.caBundle = w.clientConfig.caBundle) webhooks read :=
    hitems.imp fun _ _ => name_and_caBundle_of_webhookJson
  refine ⟨read, rfl, ?_, ?_⟩
  · obtain ⟨r, hr, hwr, -⟩ := Json.exists_mem_of_forall₂ hsame hw
    exact ⟨r, hr, hwr.trans hname⟩
  · intro r hr hrname
    obtain ⟨w', hw', hname', hca⟩ := Json.exists_mem_of_forall₂ hsame.flip hr
    rw [hca]
    exact htrust w' hw' (hname'.symm.trans hrname)

end WebhookConfiguration

end ConnectorKeeper
