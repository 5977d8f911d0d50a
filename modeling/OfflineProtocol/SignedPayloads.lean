import OfflineProtocol.ByteFraming
import OfflineProtocol.Message

/-! The byte strings that are signed: the canonical payload, the two control-frame
payloads, the gateway proof and the three membership payloads. -/
namespace OfflineProtocol.SignedPayloads
open ByteFraming List

inductive SealedError
  | fieldTooLarge (length : ℕ)
  | deserialization (detail : String)
deriving DecidableEq

def ctrlSignDomain : Bytes := "offline-ctrl-v1".toUTF8.data.toList

def ctrlSignDomainV2 : Bytes := "offline-ctrl-v2".toUTF8.data.toList

def gatewayAddrSignDomain : Bytes := "offline-gateway-addr-v1".toUTF8.data.toList

def memberCertDomain : Bytes := "offline-app-member-v1".toUTF8.data.toList

def memberTranscriptDomain : Bytes := "offline-app-member-transcript-v1".toUTF8.data.toList

def memberE2eDomain : Bytes := "offline-app-member-e2e-v1".toUTF8.data.toList

def asBytes (text : String) : Bytes :=
  text.toUTF8.data.toList

lemma asBytes_inj (h : asBytes a = asBytes b) : a = b := by
  apply String.toByteArray_inj.1
  apply ByteArray.ext
  exact Array.toList_inj.1 h

def appendFields (buf : Bytes) : List Bytes → Except SealedError Bytes
  | [] => .ok buf
  | field :: fields =>
    if field.length < 2 ^ 32 then
      appendFields (buf ++ beBytes 4 field.length ++ field) fields
    else .error (.fieldTooLarge field.length)

def canonicalPayload (domain : Bytes) (fields : List Bytes) : Except SealedError Bytes :=
  appendFields domain fields

lemma appendFields_ok (h : appendFields buf fields = .ok bytes) :
    bytes = buf ++ framed 4 fields ∧ ∀ f ∈ fields, f.length < 256 ^ 4 := by
  induction fields generalizing buf with
  | nil =>
    have hbuf : buf = bytes := Except.ok.inj h
    refine ⟨?_, nofun⟩
    rw [← hbuf]
    exact (append_nil buf).symm
  | cons field fields ih =>
    unfold appendFields at h
    split_ifs at h with hfits
    obtain ⟨hbytes, hrest⟩ := ih h
    refine ⟨?_, ?_⟩
    · rw [hbytes, framed_cons, lengthPrefixed]
      simp
    · exact forall_mem_cons.2 ⟨by omega, hrest⟩

lemma canonicalPayload_inj
    (hf : canonicalPayload domain fs = .ok bytes) (hg : canonicalPayload domain gs = .ok bytes) :
    fs = gs := by
  obtain ⟨hbytes, hfits⟩ := appendFields_ok hf
  obtain ⟨hbytes', hfits'⟩ := appendFields_ok hg
  have hframes : framed 4 fs = framed 4 gs := append_cancel_left (hbytes ▸ hbytes')
  exact framed_inj (by omega) hfits hfits' hframes

structure StampedMessage extends Message where
  timestamp : Int64
deriving DecidableEq

def controlSigningPayload (message : StampedMessage) : Except SealedError Bytes :=
  canonicalPayload ctrlSignDomain
    [asBytes message.sender, asBytes message.id, asBytes message.recipient, asBytes message.content]

def stamped (timestamp : Int64) : Bytes :=
  beBytes 8 timestamp.toBitVec.toNat

def controlSigningPayloadV2 (message : StampedMessage) : Except SealedError Bytes :=
  canonicalPayload ctrlSignDomainV2
    [asBytes message.sender, asBytes message.id, asBytes message.recipient,
      asBytes message.content, stamped message.timestamp]

lemma stamped_inj (h : stamped t = stamped u) : t = u := by
  have ht : t.toBitVec.toNat < 256 ^ 8 := t.toBitVec.isLt
  have hu : u.toBitVec.toNat < 256 ^ 8 := u.toBitVec.isLt
  exact Int64.toBitVec_inj.1 (BitVec.toNat_inj.1 (beBytes_inj ht hu h))

def gatewayAddressProofPayload (address : String) (challenge : Bytes) :
    Except SealedError Bytes := do
  let payload ← canonicalPayload gatewayAddrSignDomain [asBytes address]
  return payload ++ challenge

lemma gatewayAddressProofPayload_ok
    (h : gatewayAddressProofPayload address challenge = .ok bytes) :
    bytes = gatewayAddrSignDomain ++ (lengthPrefixed 4 (asBytes address) ++ challenge) ∧
      (asBytes address).length < 256 ^ 4 := by
  unfold gatewayAddressProofPayload at h
  cases hpayload : canonicalPayload gatewayAddrSignDomain [asBytes address] with
  | error e =>
    rw [hpayload] at h
    cases h
  | ok payload =>
    rw [hpayload] at h
    cases h
    obtain ⟨hbytes, hfits⟩ := appendFields_ok hpayload
    refine ⟨?_, hfits _ (mem_singleton_self _)⟩
    rw [hbytes, framed_cons]
    simp only [framed, flatMap_nil, append_nil, append_assoc]

structure Address where
  hash : FixedBytes 20
deriving DecidableEq

def Address.payload (address : Address) : Bytes :=
  1 :: address.hash.val

lemma Address.payload_length (address : Address) : address.payload.length = 21 := by
  rw [payload, length_cons, address.hash.property]

lemma Address.payload_inj {a b : Address} (h : a.payload = b.payload) : a = b := by
  obtain ⟨⟨hash, hlength⟩⟩ := a
  obtain ⟨⟨hash', hlength'⟩⟩ := b
  simp only [payload, cons.injEq, true_and] at h
  subst h
  rfl

namespace MemberCert

def signingPayload (address : Address) (notAfter : UInt64) : Bytes :=
  memberCertDomain ++ address.payload ++ beBytes 8 notAfter.toNat

end MemberCert

def transcriptSigningPayload (signer : Address) (nonceSigner : FixedBytes 16) (peer : Address)
    (noncePeer : FixedBytes 16) : Bytes :=
  memberTranscriptDomain ++ signer.payload ++ peer.payload ++ nonceSigner.val ++ noncePeer.val

inductive ProofKind
  | keyPackage
  | welcome
  | groupWelcome
  | discoveryQuery
  | discoveryResponse
deriving DecidableEq

def ProofKind.wire : ProofKind → UInt8
  | .keyPackage => 1
  | .welcome => 2
  | .groupWelcome => 3
  | .discoveryQuery => 4
  | .discoveryResponse => 5

lemma ProofKind.wire_inj {k l : ProofKind} (h : k.wire = l.wire) : k = l := by
  revert h
  cases k <;> cases l <;> decide

def proofRecipient (recipient : Option Address) (kind : ProofKind) : Except SealedError Bytes :=
  match kind, recipient with
  | .discoveryQuery, none => .ok (replicate 21 0)
  | .discoveryQuery, some _ =>
    .error (.deserialization "membership: a discovery query names no recipient")
  | _, some address => .ok address.payload
  | _, none => .error (.deserialization "membership: proof recipient missing")

def e2eProofSigningPayload (digest : Bytes → FixedBytes 32) (recipient : Option Address)
    (kind : ProofKind) (frameBody : Bytes) : Except SealedError Bytes := do
  let recipient ← proofRecipient recipient kind
  return memberE2eDomain ++ recipient ++ [kind.wire] ++ (digest frameBody).val

lemma proofRecipient_ok (h : proofRecipient recipient kind = .ok bytes) :
    kind = .discoveryQuery ∧ recipient = none ∧ bytes = replicate 21 0 ∨
      kind ≠ .discoveryQuery ∧ ∃ address, recipient = some address ∧ bytes = address.payload := by
  unfold proofRecipient at h
  split at h
  · exact .inl ⟨rfl, rfl, (Except.ok.inj h).symm⟩
  · cases h
  · rename_i hkind
    exact .inr ⟨fun heq => hkind heq, _, rfl, (Except.ok.inj h).symm⟩
  · cases h

lemma proofRecipient_length
    (h : proofRecipient recipient kind = .ok bytes) : bytes.length = 21 := by
  rcases proofRecipient_ok h with ⟨-, -, rfl⟩ | ⟨-, address, -, rfl⟩
  · exact length_replicate
  · exact address.payload_length

lemma proofRecipient_inj {r r' : Option Address}
    (h : proofRecipient r kind = .ok bytes) (h' : proofRecipient r' kind = .ok bytes) : r = r' := by
  rcases proofRecipient_ok h with ⟨hkind, hr, -⟩ | ⟨hkind, a, hr, hbytes⟩ <;>
    rcases proofRecipient_ok h' with ⟨hkind', hr', -⟩ | ⟨hkind', a', hr', hbytes'⟩
  · rw [hr, hr']
  · exact absurd hkind hkind'
  · exact absurd hkind' hkind
  · rw [hr, hr', Address.payload_inj (hbytes.symm.trans hbytes')]

lemma e2eProofSigningPayload_ok
    (h : e2eProofSigningPayload digest r kind body = .ok bytes) :
    ∃ field, proofRecipient r kind = .ok field ∧
      bytes = memberE2eDomain ++ (field ++ ([kind.wire] ++ (digest body).val)) := by
  unfold e2eProofSigningPayload at h
  cases hfield : proofRecipient r kind with
  | error e =>
    rw [hfield] at h
    cases h
  | ok field =>
    rw [hfield] at h
    cases h
    exact ⟨field, rfl, by simp⟩

inductive SigningInput
  | canonical (domain : Bytes) (fields : List Bytes)
  | control (message : StampedMessage)
  | controlV2 (message : StampedMessage)
  | gateway (address : String) (challenge : Bytes)
  | memberCert (address : Address) (notAfter : UInt64)
  | transcript (signer : Address) (nonceSigner : FixedBytes 16) (peer : Address)
      (noncePeer : FixedBytes 16)
  | e2eProof (recipient : Option Address) (kind : ProofKind) (frameBody : Bytes)

namespace SigningInput
variable {digest : Bytes → FixedBytes 32}

def payload (digest : Bytes → FixedBytes 32) : SigningInput → Except SealedError Bytes
  | canonical domain fields => canonicalPayload domain fields
  | control message => controlSigningPayload message
  | controlV2 message => controlSigningPayloadV2 message
  | gateway address challenge => gatewayAddressProofPayload address challenge
  | memberCert address notAfter => .ok (MemberCert.signingPayload address notAfter)
  | transcript signer nonceSigner peer noncePeer =>
    .ok (transcriptSigningPayload signer nonceSigner peer noncePeer)
  | e2eProof recipient kind frameBody => e2eProofSigningPayload digest recipient kind frameBody

def domain : SigningInput → Bytes
  | canonical domain _ => domain
  | control _ => ctrlSignDomain
  | controlV2 _ => ctrlSignDomainV2
  | gateway _ _ => gatewayAddrSignDomain
  | memberCert _ _ => memberCertDomain
  | transcript _ _ _ _ => memberTranscriptDomain
  | e2eProof _ _ _ => memberE2eDomain

def hashed : SigningInput → List Bytes
  | e2eProof _ _ frameBody => [frameBody]
  | _ => []

/-- The domain a caller gives is the other input's, both given by a caller, or
separated from it. -/
def DomainsApart : SigningInput → SigningInput → Prop
  | canonical d _, canonical e _ => d = e ∨ Separated d e
  | canonical d _, j => Separated d j.domain
  | i, canonical e _ => Separated i.domain e
  | _, _ => True

/-- The same builder, from equal inputs: the first control payload is built from
four fields, the second also from the stamp. -/
def Same : SigningInput → SigningInput → Prop
  | canonical d fs, canonical e gs => d = e ∧ fs = gs
  | control m, control m' =>
    m.sender = m'.sender ∧ m.id = m'.id ∧ m.recipient = m'.recipient ∧ m.content = m'.content
  | controlV2 m, controlV2 m' =>
    m.sender = m'.sender ∧ m.id = m'.id ∧ m.recipient = m'.recipient ∧ m.content = m'.content ∧
      m.timestamp = m'.timestamp
  | gateway a c, gateway a' c' => a = a' ∧ c = c'
  | memberCert a n, memberCert a' n' => a = a' ∧ n = n'
  | transcript s n p q, transcript s' n' p' q' => s = s' ∧ n = n' ∧ p = p' ∧ q = q'
  | e2eProof r k b, e2eProof r' k' b' => r = r' ∧ k = k' ∧ b = b'
  | _, _ => False

lemma domain_leads {i : SigningInput} (h : i.payload digest = .ok bytes) :
    i.domain <+: bytes := by
  cases i with
  | canonical d fs => exact ⟨_, (appendFields_ok h).1.symm⟩
  | control m => exact ⟨_, (appendFields_ok h).1.symm⟩
  | controlV2 m => exact ⟨_, (appendFields_ok h).1.symm⟩
  | gateway a c => exact ⟨_, (gatewayAddressProofPayload_ok h).1.symm⟩
  | memberCert a n =>
    cases h
    exact ⟨_, (append_assoc _ _ _).symm⟩
  | transcript s n p q =>
    cases h
    exact prefix_append _ _
  | e2eProof r k b =>
    obtain ⟨field, -, hbytes⟩ := e2eProofSigningPayload_ok h
    exact ⟨_, hbytes.symm⟩

inductive SameBuilder : SigningInput → SigningInput → Prop
  | canonical (d : Bytes) (fs gs : List Bytes) : SameBuilder (.canonical d fs) (.canonical d gs)
  | control (m m' : StampedMessage) : SameBuilder (.control m) (.control m')
  | controlV2 (m m' : StampedMessage) : SameBuilder (.controlV2 m) (.controlV2 m')
  | gateway (a a' : String) (c c' : Bytes) : SameBuilder (.gateway a c) (.gateway a' c')
  | memberCert (a a' : Address) (n n' : UInt64) : SameBuilder (.memberCert a n) (.memberCert a' n')
  | transcript (s s' p p' : Address) (n n' q q' : FixedBytes 16) :
      SameBuilder (.transcript s n p q) (.transcript s' n' p' q')
  | e2eProof (r r' : Option Address) (k k' : ProofKind) (b b' : Bytes) :
      SameBuilder (.e2eProof r k b) (.e2eProof r' k' b')

lemma fixedDomains_separated :
    [ctrlSignDomain, ctrlSignDomainV2, gatewayAddrSignDomain, memberCertDomain,
      memberTranscriptDomain, memberE2eDomain].Pairwise Separated := by
  decide

/-- Different builders sign under separated domains. -/
lemma sameBuilder_or_separated {i j : SigningInput} (h : i.DomainsApart j) :
    i.SameBuilder j ∨ Separated i.domain j.domain := by
  have hfixed := fixedDomains_separated
  simp only [pairwise_cons, mem_cons, not_mem_nil, or_false, forall_eq_or_imp, forall_eq] at hfixed
  obtain ⟨⟨h12, h13, h14, h15, h16⟩, ⟨h23, h24, h25, h26⟩, ⟨h34, h35, h36⟩, ⟨h45, h46⟩, h56, -⟩ :=
    hfixed
  cases i with
  | canonical d fs =>
    cases j with
    | canonical e gs =>
      rcases h with rfl | h
      · exact .inl (.canonical d fs gs)
      · exact .inr h
    | _ => exact .inr h
  | control m =>
    cases j with
    | canonical => exact .inr h
    | control m' => exact .inl (.control m m')
    | controlV2 => exact .inr h12
    | gateway => exact .inr h13
    | memberCert => exact .inr h14
    | transcript => exact .inr h15
    | e2eProof => exact .inr h16
  | controlV2 m =>
    cases j with
    | canonical => exact .inr h
    | control => exact .inr h12.symm
    | controlV2 m' => exact .inl (.controlV2 m m')
    | gateway => exact .inr h23
    | memberCert => exact .inr h24
    | transcript => exact .inr h25
    | e2eProof => exact .inr h26
  | gateway a c =>
    cases j with
    | canonical => exact .inr h
    | control => exact .inr h13.symm
    | controlV2 => exact .inr h23.symm
    | gateway a' c' => exact .inl (.gateway a a' c c')
    | memberCert => exact .inr h34
    | transcript => exact .inr h35
    | e2eProof => exact .inr h36
  | memberCert a n =>
    cases j with
    | canonical => exact .inr h
    | control => exact .inr h14.symm
    | controlV2 => exact .inr h24.symm
    | gateway => exact .inr h34.symm
    | memberCert a' n' => exact .inl (.memberCert a a' n n')
    | transcript => exact .inr h45
    | e2eProof => exact .inr h46
  | transcript s n p q =>
    cases j with
    | canonical => exact .inr h
    | control => exact .inr h15.symm
    | controlV2 => exact .inr h25.symm
    | gateway => exact .inr h35.symm
    | memberCert => exact .inr h45.symm
    | transcript s' n' p' q' => exact .inl (.transcript s s' p p' n n' q q')
    | e2eProof => exact .inr h56
  | e2eProof r k b =>
    cases j with
    | canonical => exact .inr h
    | control => exact .inr h16.symm
    | controlV2 => exact .inr h26.symm
    | gateway => exact .inr h36.symm
    | memberCert => exact .inr h46.symm
    | transcript => exact .inr h56.symm
    | e2eProof r' k' b' => exact .inl (.e2eProof r r' k k' b b')

lemma sameBuilder_of_payload {i j : SigningInput} (h : i.DomainsApart j)
    (hi : i.payload digest = .ok bytes) (hj : j.payload digest = .ok bytes) : i.SameBuilder j := by
  rcases sameBuilder_or_separated h with hsame | hseparated
  · exact hsame
  · exact absurd (domain_leads hj) (hseparated.not_leads (domain_leads hi))

lemma control_same
    (h : controlSigningPayload m = .ok bytes) (h' : controlSigningPayload m' = .ok bytes) :
    Same (control m) (control m') := by
  have hfields := canonicalPayload_inj h h'
  simp only [cons.injEq, and_true] at hfields
  obtain ⟨hsend, hid, hrec, hcont⟩ := hfields
  exact ⟨asBytes_inj hsend, asBytes_inj hid, asBytes_inj hrec, asBytes_inj hcont⟩

lemma controlV2_same
    (h : controlSigningPayloadV2 m = .ok bytes) (h' : controlSigningPayloadV2 m' = .ok bytes) :
    Same (controlV2 m) (controlV2 m') := by
  have hfields := canonicalPayload_inj h h'
  simp only [cons.injEq, and_true] at hfields
  obtain ⟨hsend, hid, hrec, hcont, hstamp⟩ := hfields
  exact ⟨asBytes_inj hsend, asBytes_inj hid, asBytes_inj hrec, asBytes_inj hcont,
    stamped_inj hstamp⟩

lemma gateway_same (h : gatewayAddressProofPayload a c = .ok bytes)
    (h' : gatewayAddressProofPayload a' c' = .ok bytes) : Same (gateway a c) (gateway a' c') := by
  obtain ⟨hbytes, hfits⟩ := gatewayAddressProofPayload_ok h
  obtain ⟨hbytes', hfits'⟩ := gatewayAddressProofPayload_ok h'
  -- The prefix says where the address ends; the challenge is the remainder.
  obtain ⟨haddress, hchallenge⟩ :=
    lengthPrefixed_append_inj hfits hfits' (append_cancel_left (hbytes.symm.trans hbytes'))
  exact ⟨asBytes_inj haddress, hchallenge⟩

lemma memberCert_same {a a' : Address}
    (h : MemberCert.signingPayload a n = MemberCert.signingPayload a' n') :
    Same (memberCert a n) (memberCert a' n') := by
  simp only [MemberCert.signingPayload, append_assoc] at h
  obtain ⟨haddress, hnot⟩ := append_inj (append_cancel_left h)
    (by rw [Address.payload_length, Address.payload_length])
  have hn : n.toNat < 256 ^ 8 := n.toNat_lt
  have hn' : n'.toNat < 256 ^ 8 := n'.toNat_lt
  exact ⟨Address.payload_inj haddress, UInt64.toNat_inj.1 (beBytes_inj hn hn' hnot)⟩

lemma transcript_same {s s' p p' : Address}
    (h : transcriptSigningPayload s n p q = transcriptSigningPayload s' n' p' q') :
    Same (transcript s n p q) (transcript s' n' p' q') := by
  simp only [transcriptSigningPayload, append_assoc] at h
  obtain ⟨hsign, h⟩ := append_inj (append_cancel_left h)
    (by rw [Address.payload_length, Address.payload_length])
  obtain ⟨hpeer, h⟩ := append_inj h (by rw [Address.payload_length, Address.payload_length])
  obtain ⟨hnonce, hnonce'⟩ := append_inj h (by rw [n.property, n'.property])
  exact ⟨Address.payload_inj hsign, Subtype.ext hnonce, Address.payload_inj hpeer,
    Subtype.ext hnonce'⟩

lemma e2eProof_same {r r' : Option Address} (hcol : digest b = digest b' → b = b')
    (h : e2eProofSigningPayload digest r k b = .ok bytes)
    (h' : e2eProofSigningPayload digest r' k' b' = .ok bytes) :
    Same (e2eProof r k b) (e2eProof r' k' b') := by
  obtain ⟨field, hfield, hbytes⟩ := e2eProofSigningPayload_ok h
  obtain ⟨field', hfield', hbytes'⟩ := e2eProofSigningPayload_ok h'
  obtain ⟨hrec, hrest⟩ := append_inj (append_cancel_left (hbytes.symm.trans hbytes'))
    (by rw [proofRecipient_length hfield, proofRecipient_length hfield'])
  obtain ⟨hkind, hdigest⟩ := append_inj hrest rfl
  have hkind' : k = k' := ProofKind.wire_inj (singleton_inj.1 hkind)
  subst hkind' hrec
  exact ⟨proofRecipient_inj hfield hfield', rfl, hcol (Subtype.ext hdigest)⟩

/-- Equal signed bytes come from one builder and the same inputs. -/
theorem signed_payloads_unambiguous {i j : SigningInput} {bytes : Bytes} {bodies : Set Bytes}
    (hdigest : Set.InjOn digest bodies) (hbodies : ∀ b ∈ i.hashed ++ j.hashed, b ∈ bodies)
    (hapart : i.DomainsApart j) (hi : i.payload digest = .ok bytes)
    (hj : j.payload digest = .ok bytes) : i.Same j := by
  cases sameBuilder_of_payload hapart hi hj with
  | canonical d fs gs => exact ⟨rfl, canonicalPayload_inj hi hj⟩
  | control m m' => exact control_same hi hj
  | controlV2 m m' => exact controlV2_same hi hj
  | gateway a a' c c' => exact gateway_same hi hj
  | memberCert a a' n n' => exact memberCert_same (Except.ok.inj (hi.trans hj.symm))
  | transcript s s' p p' n n' q q' => exact transcript_same (Except.ok.inj (hi.trans hj.symm))
  | e2eProof r r' k k' b b' =>
    have hb : b ∈ bodies := hbodies b (mem_append_left _ (mem_singleton_self b))
    have hb' : b' ∈ bodies := hbodies b' (mem_append_right _ (mem_singleton_self b'))
    exact e2eProof_same (fun h => hdigest hb hb' h) hi hj

def stampedAt (timestamp : Int64) : StampedMessage where
  id := "m1"
  sender := "alice"
  recipient := "bob"
  appId := ""
  priority := .medium
  ttl := 8
  hopCount := 0
  content := "hello"
  binaryContent := none
  mediaMetadata := none
  metadata := ∅
  timestamp := timestamp

def padded (body : Bytes) : FixedBytes 32 :=
  ⟨(body ++ replicate 32 0).take 32, by simp⟩

/-- Two stamps of one message have one first control payload, and are the same but for them. -/
theorem signed_payloads_unambiguous_stamps :
    (control (stampedAt 1)).payload padded = (control (stampedAt 2)).payload padded ∧
      (control (stampedAt 1)).Same (control (stampedAt 2)) :=
  ⟨rfl, signed_payloads_unambiguous (Set.injOn_singleton padded [1]) (by simp [hashed]) trivial rfl
    rfl⟩

/-- The first control payload leaves the stamp out. -/
theorem control_payload_omits_timestamp :
    (control (stampedAt 1)).payload padded = (control (stampedAt 2)).payload padded ∧
      ((control (stampedAt 1)).payload padded).isOk = true ∧
      (stampedAt 1).timestamp ≠ (stampedAt 2).timestamp := by
  decide

end SigningInput
end OfflineProtocol.SignedPayloads
