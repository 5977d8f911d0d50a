import OfflineProtocol.LeafStore
import OfflineProtocol.SessionStore
import OfflineProtocol.WireCodec

/-!
# The sealed envelope and the slots it names

The slot of a session writes two ids in one order, apart by a colon that neither has. An
envelope travels as JSON or in a compact form, which is read front to back. The libraries are
parameters with their laws.
-/

namespace OfflineProtocol.Sealed
open ByteFraming Wire SessionSlots List

def maxStringFieldLen : ℕ := 4096

inductive SealedError
  | invalidGroupId (text : String)
  | deserialization (text : String)

/-! ## Group ids -/

def GroupId.validate (id : String) : Except SealedError Unit :=
  if id = "" then .error (.invalidGroupId "Group ID cannot be empty")
  else if maxStringFieldLen < (utf8 id).length then
    .error (.invalidGroupId ("Group ID length " ++ toString (utf8 id).length ++
      " exceeds maximum " ++ toString maxStringFieldLen))
  else
    (id.toList.splitOn ':').forM fun segment =>
      (validateIdChars (String.ofList segment) "Group ID segment").mapError .invalidGroupId

abbrev GroupId := { id : String // GroupId.validate id = .ok () }

def GroupId.new (id : String) : Except SealedError GroupId :=
  match h : GroupId.validate id with
  | .ok () => .ok ⟨id, h⟩
  | .error e => .error e

def GroupId.forSession (book : AddressBook) (a b : String) : Except SealedError GroupId :=
  let ordered := book.forSession a b
  GroupId.new ("session:" ++ ordered.1 ++ ":" ++ ordered.2)

lemma GroupId.new_iff {id} : GroupId.new id = .ok group ↔ group.1 = id := by
  unfold GroupId.new
  split
  · simp [Subtype.ext_iff, eq_comm]
  · next e he =>
    refine ⟨nofun, ?_⟩
    rintro rfl
    exact nomatch group.2.symm.trans he

lemma GroupId.length_le (group : GroupId) : (utf8 group.1).length ≤ maxStringFieldLen := by
  have hvalid := group.2
  unfold GroupId.validate at hvalid
  split_ifs at hvalid with _ hlong
  exact not_lt.1 hlong

lemma validateIdChars_ok {id typeName} (h : validateIdChars id typeName = .ok ()) :
    ':' ∉ id.toList ∧ ∀ name, validateIdChars id name = .ok () := by
  unfold validateIdChars at h ⊢
  split_ifs at h ⊢ with hempty hdots hcont hchars
  exact ⟨fun hcolon => hchars (.inr (.inr hcolon)), fun _ => rfl⟩

lemma userId_ok (a : UserId) : (':' ∉ a.1.toList ∧ ∀ name, validateIdChars a.1 name = .ok ()) ∧
      (utf8 a.1).length ≤ maxIdLen := by
  have hvalid := a.2
  unfold validateId at hvalid
  split_ifs at hvalid with hlong
  exact ⟨validateIdChars_ok hvalid, not_lt.1 hlong⟩

def slot (a b : String) : String := "session:" ++ a ++ ":" ++ b

lemma slot_segments (ha : ':' ∉ a.toList) (hb : ':' ∉ b.toList) :
    (slot a b).toList.splitOn ':' = ["session".toList, a.toList, b.toList] := by
  have htext : (slot a b).toList = "session".toList ++ ':' :: (a.toList ++ ':' :: b.toList) := by
    simp [slot]
  rw [htext, splitOn_append_cons_self_of_not_mem (by decide),
    splitOn_append_cons_self_of_not_mem ha, splitOn_eq_singleton hb]

lemma slot_valid {a b : UserId} : GroupId.validate (slot a.1 b.1) = .ok () := by
  obtain ⟨⟨hcol, hcharsA⟩, hlenA⟩ := userId_ok a
  obtain ⟨⟨hcolo, hcharsB⟩, hlenB⟩ := userId_ok b
  have hlen : (utf8 (slot a.1 b.1)).length = 9 + (utf8 a.1).length + (utf8 b.1).length := by
    simp only [slot, utf8, String.toList_append, flatMap_append, length_append]
    have hhead : ("session:".toList.flatMap String.utf8EncodeChar).length = 8 := by decide
    have hcolon : (":".toList.flatMap String.utf8EncodeChar).length = 1 := by decide
    omega
  have hne : slot a.1 b.1 ≠ "" := fun h => by simp [slot] at h
  have hshort : ¬maxStringFieldLen < (utf8 (slot a.1 b.1)).length := by
    rw [hlen]
    unfold maxStringFieldLen maxIdLen at *
    omega
  rw [GroupId.validate, if_neg hne, if_neg hshort, slot_segments hcol hcolo]
  have hsession : validateIdChars "session" "Group ID segment" = .ok () := by decide +kernel
  simp only [forM_eq_forM, forM_cons, forM_nil, String.ofList_toList, hsession, hcharsA, hcharsB]
  rfl

lemma givesWayTo_flip {book : AddressBook} (hne : a ≠ b) :
    book.givesWayTo a b = !book.givesWayTo b a := by
  unfold AddressBook.givesWayTo
  cases ha : book.hashOf a <;> cases hb : book.hashOf b
  case some.some m n =>
    have hmn : m ≠ n := fun h => hne (book.canonical a b n (h ▸ ha) hb)
    rw [← decide_not, decide_eq_decide]
    omega
  all_goals
    rw [← decide_not, decide_eq_decide]
    refine ⟨String.lt_asymm, fun h => ?_⟩
    by_contra hn
    exact hne (String.le_antisymm (String.not_lt.1 hn) (String.not_lt.1 h))

lemma forSession_comm (book : AddressBook) (a b) : book.forSession a b = book.forSession b a := by
  by_cases hab : a = b
  · rw [hab]
  unfold AddressBook.forSession
  rw [givesWayTo_flip hab]
  cases book.givesWayTo b a <;> rfl

lemma forSession_slot (book) (a b : UserId) :
    ∃ group c d, GroupId.forSession book a.1 b.1 = .ok group ∧ group.1 = slot c.1 d.1 ∧
      s(c, d) = s(a, b) := by
  unfold GroupId.forSession AddressBook.forSession
  cases book.givesWayTo a.1 b.1 with
  | true => exact ⟨⟨_, slot_valid⟩, b, a, GroupId.new_iff.2 rfl, rfl, Sym2.eq_swap⟩
  | false => exact ⟨⟨_, slot_valid⟩, a, b, GroupId.new_iff.2 rfl, rfl, rfl⟩

/-- **A session slot names a pair.** It is the same from either side, every two user ids have
one, whether they are addresses or nicknames, and two pairs with one slot are one pair. -/
theorem session_slots_name_pairs (book : AddressBook) (a b : UserId) :
    GroupId.forSession book a.1 b.1 = GroupId.forSession book b.1 a.1 ∧
      (∃ group, GroupId.forSession book a.1 b.1 = .ok group) ∧
      ∀ c d : UserId, GroupId.forSession book a.1 b.1 = GroupId.forSession book c.1 d.1 →
        s(a, b) = s(c, d) := by
  obtain ⟨group, x, y, hgroup, hslot, hxy⟩ := forSession_slot book a b
  refine ⟨?_, ⟨group, hgroup⟩, fun c d heq => ?_⟩
  · unfold GroupId.forSession
    rw [forSession_comm]
  obtain ⟨group', z, w, hgroup', hslot', hzw⟩ := forSession_slot book c d
  cases hgroup.symm.trans (heq.trans hgroup')
  have hsegments := congrArg (fun id => id.toList.splitOn ':') (hslot.symm.trans hslot')
  simp only [slot_segments (userId_ok _).1.1 (userId_ok _).1.1, cons.injEq, and_true,
    true_and, String.toList_inj, ← Subtype.ext_iff] at hsegments
  rw [← hxy, ← hzw, hsegments.1, hsegments.2]

/-- Two addresses whose strings and whose hashes are in opposite orders: the hashes decide. -/
theorem session_slots_name_addresses :
    let book : AddressBook := ⟨SignedPayloads.bech32m⟩
    let zeros := "off1qyqqqqqqqqqqqqqqqqqqqqqqqqqqqqqqqqn8antf"
    let ones := "off1q8llllllllllllllllllllllllllllllluvweh4p"
    ones < zeros ∧ book.givesWayTo ones zeros = true ∧
      GroupId.forSession book ones zeros = GroupId.forSession book zeros ones ∧
      ∃ group, GroupId.forSession book ones zeros = .ok group := by
  intro book zeros ones
  have hpairs := session_slots_name_pairs book ⟨ones, by decide +kernel⟩ ⟨zeros, by decide +kernel⟩
  exact ⟨by decide +kernel, by decide +kernel, hpairs.1, hpairs.2.1⟩

/-! ## Envelopes -/

inductive MlsMessageType
  | application | welcome | commit | proposal

def MlsMessageType.asU8 : MlsMessageType → ℕ
  | application => 0 | welcome => 1 | commit => 2 | proposal => 3

def MlsMessageType.fromU8 : ℕ → Option MlsMessageType
  | 0 => some application | 1 => some welcome | 2 => some commit | 3 => some proposal | _ => none

structure EncryptedMessage where
  groupId : GroupId
  messageType : MlsMessageType
  epoch : UInt64
  ciphertext : Bytes
  senderId : String
  timestampMs : UInt64

def maxCiphertextLen : ℕ := 128 * 1024 * 1024

/-- A sender id and a ciphertext within the limits of the compact form. -/
structure EncryptedMessage.Fits (m : EncryptedMessage) : Prop where
  sender : (utf8 m.senderId).length ≤ maxStringFieldLen
  ciphertext : m.ciphertext.length ≤ maxCiphertextLen

/-- What serde_json does, and the texts of the other libraries' errors. -/
structure Libraries where
  jsonText : EncryptedMessage → String
  fromStr : String → Except String EncryptedMessage
  fromSlice : Bytes → Except String EncryptedMessage
  fromStr_text : ∀ m, fromStr (jsonText m) = .ok m
  fromSlice_text : ∀ m, fromSlice (utf8 (jsonText m)) = .ok m
  text_opens : ∀ m, ['\x7b', '"'] <+: (jsonText m).toList
  utf8Error : Bytes → String
  base64Error : String → String

/-- A field behind its length, which is cut to 32 bits. -/
def lengthField (field : Bytes) : Bytes := leBytes 4 field.length ++ field

def EncryptedMessage.toBytes (m : EncryptedMessage) : Bytes :=
  lengthField (utf8 m.groupId.1) ++ (lengthField (utf8 m.senderId) ++
    (leBytes 1 m.messageType.asU8 ++ (leBytes 8 m.epoch.toNat ++
      (leBytes 8 m.timestampMs.toNat ++ lengthField m.ciphertext))))

def readBytes (len : ℕ) (what : String) (data : Bytes) : Except SealedError (Bytes × Bytes) :=
  if data.length < len then .error (.deserialization ("unexpected end of data reading " ++ what))
  else .ok (data.take len, data.drop len)

def readNat (width : ℕ) (what : String) (data : Bytes) : Except SealedError (ℕ × Bytes) := do
  let (bytes, data) ← readBytes width what data
  return (fromBeBytes bytes.reverse, data)

def readField (cap : ℕ) (name : String) (data : Bytes) : Except SealedError (Bytes × Bytes) := do
  let (len, data) ← readNat 4 "u32" data
  if cap < len then
    .error (.deserialization (name ++ " " ++ toString len ++ " exceeds maximum " ++ toString cap))
  else readBytes len "bytes" data

def knownType (tag : ℕ) : Except SealedError MlsMessageType :=
  match MlsMessageType.fromU8 tag with
  | some messageType => .ok messageType
  | none => .error (.deserialization ("unknown message_type tag " ++ toString tag))

variable (lib : Libraries)

def readString (lenName name : String) (data : Bytes) : Except SealedError (String × Bytes) := do
  let (bytes, data) ← readField maxStringFieldLen lenName data
  match Postcard.fromUtf8 bytes with
  | some text => .ok (text, data)
  | none => .error (.deserialization ("invalid " ++ name ++ " UTF-8: " ++ lib.utf8Error bytes))

def fromBytes (data : Bytes) : Except SealedError EncryptedMessage := do
  let (groupId, data) ← readString lib "group_id_len" "group_id" data
  let (senderId, data) ← readString lib "sender_len" "sender_id" data
  let (tag, data) ← readNat 1 "message_type" data
  let messageType ← knownType tag
  let (epoch, data) ← readNat 8 "u64" data
  let (timestampMs, data) ← readNat 8 "u64" data
  let (ciphertext, _) ← readField maxCiphertextLen "ciphertext_len" data
  -- The group id is checked last, when every field was read.
  let groupId ← GroupId.new groupId
  return ⟨groupId, messageType, .ofNat epoch, ciphertext, senderId, .ofNat timestampMs⟩

def parseEnvelope (body : String) : Except LeafError EncryptedMessage :=
  if body.toList.head? = some '\x7b' then
    (lib.fromStr body).mapError fun e => .malformedFrame ("json envelope: " ++ e)
  else
    match b64Decode body.toList with
    | none => .error (.malformedFrame ("envelope is not base64: " ++ lib.base64Error body))
    | some bytes =>
      match fromBytes lib bytes with
      | .ok m => .ok m
      | .error _ =>
        (lib.fromSlice bytes).mapError fun e => .malformedFrame ("base64 envelope: " ++ e)

/-! ## What a reader accepts -/

section
variable {data rest : Bytes} {text : String}

lemma bind_eq_ok {α β : Type} {x : Except SealedError α} {f} {b : β} :
    x >>= f = .ok b ↔ ∃ a, x = .ok a ∧ f a = .ok b := by
  cases x <;> simp [bind, Except.bind]

lemma readBytes_iff :
    readBytes len what data = .ok (field, rest) ↔ data = field ++ rest ∧ field.length = len := by
  unfold readBytes
  split
  · refine ⟨nofun, ?_⟩
    rintro ⟨rfl, rfl⟩
    simp at *
  constructor
  · intro h
    cases h
    exact ⟨(take_append_drop len data).symm, length_take_of_le (by omega)⟩
  · rintro ⟨rfl, rfl⟩
    simp

lemma readNat_iff :
    readNat width what data = .ok (n, rest) ↔ data = leBytes width n ++ rest ∧ n < 256 ^ width := by
  simp only [readNat, bind_eq_ok, Prod.exists, readBytes_iff]
  constructor
  · rintro ⟨bytes, rest, ⟨rfl, hlen⟩, h⟩
    cases h
    obtain ⟨hbytes, hlt⟩ := eq_leBytes_iff.1 ⟨hlen, rfl⟩
    exact ⟨by rw [← hbytes], hlt⟩
  · rintro ⟨rfl, hlt⟩
    obtain ⟨hlen, hn⟩ := eq_leBytes_iff.2 ⟨rfl, hlt⟩
    exact ⟨_, rest, ⟨rfl, hlen⟩, by rw [hn]; rfl⟩

lemma readField_iff (hcap : cap < 256 ^ 4) : readField cap name data = .ok (field, rest) ↔
      data = lengthField field ++ rest ∧ field.length ≤ cap := by
  simp only [readField, bind_eq_ok, Prod.exists, readNat_iff]
  constructor
  · rintro ⟨len, data, ⟨rfl, -⟩, h⟩
    split_ifs at h with hlong
    obtain ⟨rfl, rfl⟩ := readBytes_iff.1 h
    exact ⟨(append_assoc _ _ _).symm, not_lt.1 hlong⟩
  · rintro ⟨rfl, hle⟩
    refine ⟨field.length, field ++ rest, ⟨append_assoc _ _ _, by omega⟩, ?_⟩
    rw [if_neg (not_lt.2 hle)]
    exact readBytes_iff.2 ⟨rfl, rfl⟩

lemma fromUtf8_utf8 (text) : Postcard.fromUtf8 (utf8 text) = some text :=
  Postcard.fromUtf8_iff.2 rfl

lemma readString_iff : readString lib lenName name data = .ok (text, rest) ↔
      data = lengthField (utf8 text) ++ rest ∧ (utf8 text).length ≤ maxStringFieldLen := by
  have hcap : maxStringFieldLen < 256 ^ 4 := by decide
  simp only [readString, bind_eq_ok, Prod.exists, readField_iff hcap]
  constructor
  · rintro ⟨bytes, rest, ⟨rfl, hle⟩, h⟩
    split at h
    · next text htext =>
      cases h
      obtain rfl := Postcard.fromUtf8_iff.1 htext
      exact ⟨rfl, hle⟩
    · cases h
  · rintro ⟨rfl, hle⟩
    exact ⟨_, rest, ⟨rfl, hle⟩, by rw [fromUtf8_utf8]⟩

lemma knownType_iff : knownType tag = .ok kind ↔ tag = kind.asU8 := by
  constructor
  · intro h
    unfold knownType at h
    split at h
    · next known hknown =>
      cases h
      unfold MlsMessageType.fromU8 at hknown
      split at hknown <;> cases hknown <;> rfl
    · cases h
  · rintro rfl
    cases kind <;> rfl

end

variable {data : Bytes} {m : EncryptedMessage}

/-- A reader accepts what starts with an encoding, and gives the encoded message. -/
lemma fromBytes_iff : fromBytes lib data = .ok m ↔ m.Fits ∧ m.toBytes <+: data := by
  have hcap : maxCiphertextLen < 256 ^ 4 := by decide
  simp only [fromBytes, bind_eq_ok, Prod.exists, readString_iff, readNat_iff, knownType_iff,
    readField_iff hcap, GroupId.new_iff]
  constructor
  · rintro ⟨_, _, ⟨rfl, -⟩, senderId, _, ⟨rfl, hsend⟩, _, _, ⟨rfl, -⟩, kind, rfl, epoch, _,
      ⟨rfl, hepoch⟩, timestampMs, _, ⟨rfl, htime⟩, ciphertext, rest, ⟨rfl, hcipher⟩, group, rfl, h⟩
    cases h
    have hsame (n : ℕ) (hn : n < 256 ^ 8) : (UInt64.ofNat n).toNat = n := by
      rw [UInt64.toNat_ofNat']
      omega
    refine ⟨⟨hsend, hcipher⟩, rest, ?_⟩
    simp only [EncryptedMessage.toBytes, append_assoc, hsame _ hepoch, hsame _ htime]
  · rintro ⟨hfits, rest, rfl⟩
    have htag : m.messageType.asU8 < 256 ^ 1 := by cases m.messageType <;> decide
    simp only [EncryptedMessage.toBytes, append_assoc]
    refine ⟨_, _, ⟨rfl, m.groupId.length_le⟩, _, _, ⟨rfl, hfits.sender⟩, _, _, ⟨rfl, htag⟩, _, rfl,
      _, _, ⟨rfl, m.epoch.toNat_lt⟩, _, _, ⟨rfl, m.timestampMs.toNat_lt⟩, _, rest,
      ⟨rfl, hfits.ciphertext⟩, m.groupId, rfl, ?_⟩
    rw [UInt64.ofNat_toNat, UInt64.ofNat_toNat]
    rfl

/-- What opens a JSON document would be a length above the cap of a string. -/
lemma fromBytes_brace (rest) : fromBytes lib (0x7B :: 0x22 :: rest) ≠ .ok m := by
  intro h
  obtain ⟨-, tail, heq⟩ := (fromBytes_iff lib).1 h
  have hlen := m.groupId.length_le
  simp only [EncryptedMessage.toBytes, lengthField, leBytes, beBytes, nil_append,
    reverse_cons, reverse_nil, cons_append, append_assoc, cons.injEq] at heq
  have hlow := congrArg UInt8.toNat heq.1
  have hhigh := congrArg UInt8.toNat heq.2.1
  rw [UInt8.toNat_ofNat'] at hlow hhigh
  unfold maxStringFieldLen at hlen
  simp at hlow hhigh
  omega

def base64Encode (bytes : Bytes) : String := String.ofList (b64Encode bytes)

lemma base64Encode_opens (bytes) : (base64Encode bytes).toList.head? ≠ some '\x7b' := by
  have hchar : ∀ n < 64, b64Char n ≠ '\x7b' := by decide +kernel
  rw [base64Encode, String.toList_ofList]
  fun_cases b64Encode bytes with
  | case1 => simp
  | case2 a => exact fun h => hchar _ (by have := a.toNat_lt; omega) (Option.some.inj h)
  | case3 a b => exact fun h => hchar _ (by have := a.toNat_lt; omega) (Option.some.inj h)
  | case4 a b c rest => exact fun h => hchar _ (by have := a.toNat_lt; omega) (Option.some.inj h)

lemma parseEnvelope_base64 (bytes) : parseEnvelope lib (base64Encode bytes) =
      match fromBytes lib bytes with
      | .ok m => .ok m
      | .error _ =>
        (lib.fromSlice bytes).mapError fun e => .malformedFrame ("base64 envelope: " ++ e) := by
  rw [parseEnvelope, if_neg (base64Encode_opens bytes), base64Encode, String.toList_ofList,
    b64Decode_b64Encode]

/-- **The compact form of an envelope is a code.** A message comes back from its encoding, and
what is accepted starts with the encoding of the result. Nothing that opens as JSON does is
accepted, so the three forms of a body all give the message they were made of. -/
theorem sealed_envelope_codec :
    (∀ m : EncryptedMessage, m.Fits → fromBytes lib m.toBytes = .ok m ∧
      (∀ data, data <+: m.toBytes → data ≠ m.toBytes → ∀ r, fromBytes lib data ≠ .ok r) ∧
      ∀ m' : EncryptedMessage, m'.Fits → m'.toBytes <+: m.toBytes → m' = m) ∧
    (∀ data m, fromBytes lib data = .ok m → m.toBytes <+: data) ∧
    (∀ rest m, fromBytes lib (0x7B :: 0x22 :: rest) ≠ .ok m) ∧
    ∀ m, parseEnvelope lib (lib.jsonText m) = .ok m ∧
      parseEnvelope lib (base64Encode (utf8 (lib.jsonText m))) = .ok m ∧
      (m.Fits → parseEnvelope lib (base64Encode m.toBytes) = .ok m) := by
  have hback (m : EncryptedMessage) (hfits : m.Fits) : fromBytes lib m.toBytes = .ok m :=
    (fromBytes_iff lib).2 ⟨hfits, prefix_rfl⟩
  have hfree (m m' : EncryptedMessage) (hfits : m.Fits) (hfits' : m'.Fits)
      (h : m'.toBytes <+: m.toBytes) : m' = m := by
    have hother : fromBytes lib m.toBytes = .ok m' := (fromBytes_iff lib).2 ⟨hfits', h⟩
    exact Except.ok.inj (hother.symm.trans (hback m hfits))
  refine ⟨fun m hfits => ⟨hback m hfits, fun data hdata hne r hr => ?_, fun m' => hfree m m' hfits⟩,
    fun data m h => ((fromBytes_iff lib).1 h).2, fun rest m => fromBytes_brace lib rest,
    fun m => ⟨?_, ?_, fun hfits => by rw [parseEnvelope_base64, hback m hfits]⟩⟩
  · obtain ⟨hfits', hr⟩ := (fromBytes_iff lib).1 hr
    cases hfree m r hfits hfits' (hr.trans hdata)
    exact hne (hdata.eq_of_length_le hr.length_le)
  · obtain ⟨rest, hopens⟩ := lib.text_opens m
    rw [parseEnvelope, if_pos (by rw [← hopens]; rfl), lib.fromStr_text]
    rfl
  · obtain ⟨rest, hopens⟩ := lib.text_opens m
    have hbytes : utf8 (lib.jsonText m) = 0x7B :: 0x22 :: rest.flatMap String.utf8EncodeChar := by
      rw [utf8, ← hopens, flatMap_append]
      rfl
    rw [parseEnvelope_base64]
    split
    · next r hr => exact absurd (hbytes ▸ hr) (fromBytes_brace lib _)
    · rw [lib.fromSlice_text]
      rfl

/-- A layout in which an envelope of any size can be read back. -/
def envelopeFormat : Postcard.Format EncryptedMessage :=
  (.pair .text <| .pair .byte <| .pair uint64 <| .pair .bytes <| .pair .text uint64 :
      Postcard.Format _).mapped
    (fun m => (m.groupId.1, .ofNat m.messageType.asU8, m.epoch, m.ciphertext, m.senderId,
      m.timestampMs))
    (fun (groupId, kind, epoch, ciphertext, senderId, timestampMs) => do
      let groupId ← (GroupId.new groupId).toOption
      let messageType ← MlsMessageType.fromU8 kind.toNat
      return ⟨groupId, messageType, epoch, ciphertext, senderId, timestampMs⟩)
    fun m => by
      obtain ⟨groupId, kind, _⟩ := m
      dsimp only
      rw [GroupId.new_iff.2 rfl]
      cases kind <;> rfl

def plainFromStr (text : String) : Except String EncryptedMessage :=
  match (b64Decode (text.toList.drop 2)).bind envelopeFormat.read with
  | some (m, _) => .ok m
  | none => .error "EOF while parsing"

/-- In the place of a JSON document stands such a layout, written in base64. -/
def plainLibraries : Libraries where
  jsonText m := "\x7b\"" ++ base64Encode (envelopeFormat.write m)
  fromStr := plainFromStr
  fromSlice bytes := (Postcard.fromUtf8 bytes).elim (.error "not UTF-8") plainFromStr
  fromStr_text m := by
    have hread := envelopeFormat.read_write m []
    rw [append_nil] at hread
    simp [plainFromStr, base64Encode, b64Decode_b64Encode, hread]
  fromSlice_text m := by
    have hread := envelopeFormat.read_write m []
    rw [append_nil] at hread
    simp [fromUtf8_utf8, plainFromStr, base64Encode, b64Decode_b64Encode, hread]
  text_opens m := by simp
  utf8Error _ := "invalid utf-8 sequence"
  base64Error _ := "Invalid symbol"

def hello : EncryptedMessage where
  groupId := ⟨"session:alice:bob", by rfl⟩
  messageType := .application
  epoch := 1
  ciphertext := [1, 2, 3]
  senderId := "alice"
  timestampMs := 1700000000000

theorem sealed_envelope_codec_hello :
    base64Encode hello.toBytes =
      "EQAAAHNlc3Npb246YWxpY2U6Ym9iBQAAAGFsaWNlAAEAAAAAAAAAAGjlz4sBAAADAAAAAQID" ∧
    parseEnvelope plainLibraries (base64Encode hello.toBytes) = .ok hello ∧
    parseEnvelope plainLibraries (plainLibraries.jsonText hello) = .ok hello := by
  have hparse := (sealed_envelope_codec plainLibraries).2.2.2 hello
  exact ⟨by decide +kernel, hparse.2.2 ⟨by decide, by decide⟩, hparse.1⟩

end OfflineProtocol.Sealed
