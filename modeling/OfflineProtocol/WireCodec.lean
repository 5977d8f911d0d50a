import Mathlib
import OfflineProtocol.Message
import OfflineProtocol.ByteFraming
import OfflineProtocol.Postcard

/-!
# The wire codecs of a message

A message leaves the device as a JSON document or as a binary frame of version 1. The
media key and its initialization vector are taken out on either path. The binary frame
sends the base64 tail of a content decoded and a receiver encodes it again. The
libraries underneath are parameters with the law of an inverse codec.
-/

namespace OfflineProtocol
open ByteFraming List

namespace Wire

section

structure Codec (α : Type) where
  encode : α → Except String Bytes
  decode : Bytes → Except String α

variable {α : Type}

/-- Encoding succeeds and decoding gives the value back. -/
def Codec.Inverse (codec : Codec α) : Prop :=
  ∀ a, ∃ bytes, codec.encode a = .ok bytes ∧ codec.decode bytes = .ok a

inductive Error
  | serializationError (text : String) | deserializationError (text : String)
  | invalidUserId (text : String) | invalidAppId (text : String)
  /-- The panic of a slice inside a character. -/
  | sliced
deriving DecidableEq

/-- An optional part of a frame that rides as a JSON blob. -/
def encodeJson (codec : Codec α) (field : String) : Option α → Except Error (Option Bytes)
  | none => .ok none
  | some a => ((codec.encode a).map some).mapError fun e => .serializationError (field ++ ": " ++ e)

def decodeJson (codec : Codec α) (field : String) : Option Bytes → Except Error (Option α)
  | none => .ok none
  | some bytes =>
    ((codec.decode bytes).map some).mapError fun e => .deserializationError (field ++ ": " ++ e)

lemma encodeJson_ok (h : codec.Inverse) (field) (part : Option α) :
    ∃ blob, encodeJson codec field part = .ok blob ∧ decodeJson codec field blob = .ok part := by
  cases part with
  | none => exact ⟨none, rfl, rfl⟩
  | some a =>
    obtain ⟨bytes, henc, hdec⟩ := h a
    exact ⟨some bytes, by rw [encodeJson, henc]; rfl, by rw [decodeJson, hdec]; rfl⟩

end

/-! ## Identifiers, clocks and maps -/

def utf8 (text : String) : Bytes := text.toList.flatMap String.utf8EncodeChar

def maxIdLen : ℕ := 256

def validateIdChars (id typeName : String) : Except String Unit :=
  if id = "" then .error (typeName ++ " cannot be empty")
  else if id = "." ∨ id = ".." then
    .error (typeName ++ " cannot be '.' or '..' (path traversal)")
  else if (utf8 id).any (fun b => b < 32 || b == 127) then
    .error (typeName ++ " contains ASCII control characters")
  else if '/' ∈ id.toList ∨ '\\' ∈ id.toList ∨ ':' ∈ id.toList then
    .error (typeName ++ " contains invalid characters ('/', '\\', or ':')")
  else .ok ()

def validateId (id typeName : String) : Except String Unit :=
  if maxIdLen < (utf8 id).length then
    .error (typeName ++ " exceeds the maximum length of " ++ toString maxIdLen ++ " bytes (" ++
      toString (utf8 id).length ++ " bytes)")
  else validateIdChars id typeName

abbrev ValidId (typeName : String) := { id : String // validateId id typeName = .ok () }

abbrev UserId := ValidId "User ID"

abbrev AppId := ValidId "App ID"

def newId (typeName : String) (invalid : String → Error) (id : String) :
    Except Error (ValidId typeName) :=
  match h : validateId id typeName with
  | .ok () => .ok ⟨id, h⟩
  | .error e => .error (invalid e)

def UserId.new : String → Except Error UserId := newId "User ID" .invalidUserId

def AppId.new : String → Except Error AppId := newId "App ID" .invalidAppId

lemma newId_val (invalid : String → Error) {id} : newId typeName invalid id.1 = .ok id := by
  unfold newId
  split
  · rfl
  · next e he => rw [id.2] at he; cases he

def lamportClockMax : UInt64 := 0xFFFFFFFFFFFFFFFF / 2

def LamportClock.fromValue (value : UInt64) : UInt64 :=
  if value ≤ lamportClockMax then value else lamportClockMax

/-- A hash map with the order in which it iterates. -/
@[ext]
structure MetadataMap where
  entries : List (String × String)
  distinct : (entries.map Prod.fst).Nodup
deriving DecidableEq

namespace MetadataMap

def insert (map : MetadataMap) (entry : String × String) : MetadataMap where
  entries := map.entries.filter (fun e => e.1 != entry.1) ++ [entry]
  distinct := by
    rw [map_append, nodup_append]
    refine ⟨map.distinct.sublist (filter_sublist.map _), by simp, ?_⟩
    intro key hkey other hother
    obtain ⟨e, he, rfl⟩ := mem_map.1 hkey
    have hne := (mem_filter.1 he).2
    simp only [map_cons, map_nil, mem_singleton] at hother
    simpa [hother] using hne

def collect (entries : List (String × String)) : MetadataMap :=
  entries.foldl insert ⟨[], by simp⟩

lemma collect_entries {entries}
    (hd : (entries.map Prod.fst).Nodup) : (collect entries).entries = entries := by
  suffices h : ∀ (rest : List (String × String)) (map : MetadataMap),
      ((map.entries ++ rest).map Prod.fst).Nodup →
      (rest.foldl insert map).entries = map.entries ++ rest from
    (h entries ⟨[], by simp⟩ (by simpa using hd)).trans (nil_append _)
  intro rest
  induction rest with
  | nil => intro map _; simp
  | cons e rest ih =>
    intro map hnd
    have hkeep : map.entries.filter (fun x => x.1 != e.1) = map.entries := by
      refine filter_eq_self.2 fun x hx => ?_
      rw [map_append, nodup_append] at hnd
      simpa using hnd.2.2 x.1 (mem_map_of_mem hx) e.1 (by simp)
    have hins : (map.insert e).entries = map.entries ++ [e] := by simp [insert, hkeep]
    rw [foldl_cons, ih _ (by simpa [hins] using hnd), hins, append_assoc]
    rfl

def sorted (map : MetadataMap) : List (String × String) :=
  map.entries.mergeSort fun a b => decide (a.1 ≤ b.1)

lemma sorted_perm (map : MetadataMap) : map.sorted.Perm map.entries :=
  mergeSort_perm _ _

lemma sorted_distinct (map : MetadataMap) : (map.sorted.map Prod.fst).Nodup :=
  (map.sorted_perm.map _).nodup_iff.2 map.distinct

lemma sorted_increasing (map : MetadataMap) : map.sorted.Pairwise fun a b => a.1 < b.1 := by
  have hle : map.sorted.Pairwise fun a b => a.1 ≤ b.1 := by
    have h := @List.pairwise_mergeSort _ (fun a b => decide (a.1 ≤ b.1))
      (fun a b c hab hbc => by simpa using le_trans (by simpa using hab) (by simpa using hbc))
      (fun a b => by simpa using le_total a.1 b.1) map.entries
    exact h.imp fun hab => by simpa using hab
  have hne := pairwise_map.1 map.sorted_distinct
  exact (hle.and hne).imp fun hab => lt_of_le_of_ne hab.1 hab.2

lemma sorted_eq {map other : MetadataMap} (h : map.entries.Perm other.entries) :
    map.sorted = other.sorted :=
  ((map.sorted_perm.trans h).trans other.sorted_perm.symm).eq_of_pairwise
    (fun _ _ _ _ hab hba => absurd hab (lt_asymm hba)) map.sorted_increasing
    other.sorted_increasing

end MetadataMap

/-! ## The base64 tail of a content -/

def b64TailMinLen : ℕ := 64

def isB64 (b : UInt8) : Bool :=
  (48 ≤ b && b ≤ 57) || (65 ≤ b && b ≤ 90) || (97 ≤ b && b ≤ 122) || b == 43 || b == 47

/-- An index that moves back over the bytes of one class, at most `limit` times. -/
def scanBack (p : UInt8 → Bool) (bytes : Bytes) : ℕ → ℕ → ℕ
  | 0, i => i
  | _ + 1, 0 => 0
  | limit + 1, i + 1 => if bytes[i]?.any p then scanBack p bytes limit i else i + 1

lemma scanBack_le (p : UInt8 → Bool) {limit i : ℕ} : scanBack p bytes limit i ≤ i := by
  fun_induction scanBack p bytes limit i <;> omega

lemma scanBack_class (p : UInt8 → Bool)
    (hj : scanBack p bytes limit i ≤ j) (hi : j < i) (hb : bytes[j]? = some b) : p b := by
  fun_induction scanBack p bytes limit i with
  | case1 i => omega
  | case2 => omega
  | case3 limit i hp ih =>
    rcases Nat.lt_succ_iff_lt_or_eq.1 hi with hlt | rfl
    · exact ih hj hlt
    · simpa [hb] using hp
  | case4 => omega

/-- The index before the canonical padding. -/
def runEnd (bytes : Bytes) : ℕ := scanBack (· == 61) bytes 2 bytes.length

def runStart (bytes : Bytes) : ℕ := scanBack isB64 bytes (runEnd bytes) (runEnd bytes)

/-- Where the tail would begin: the run gives up what exceeds a multiple of four. -/
def tailStart (bytes : Bytes) : ℕ :=
  runStart bytes + (bytes.length - runStart bytes) % 4

lemma tailStart_le (bytes : Bytes) : tailStart bytes ≤ bytes.length := by
  have hend : runEnd bytes ≤ bytes.length := scanBack_le _
  have hstart : runStart bytes ≤ runEnd bytes := scanBack_le _
  have hmod := Nat.mod_le (bytes.length - runStart bytes) 4
  unfold tailStart
  omega

lemma isB64_ascii : ∀ b, isB64 b → b.toNat < 128 := by
  decide +kernel

lemma tailStart_ascii (hj : tailStart bytes ≤ j) (hb : bytes[j]? = some b) : b.toNat < 128 := by
  by_cases hend : j < runEnd bytes
  · have hrun : runStart bytes ≤ j := (Nat.le_add_right _ _).trans hj
    exact isB64_ascii b (scanBack_class isB64 hrun hend hb)
  · have hlen : j < bytes.length := (List.getElem?_eq_some_iff.1 hb).1
    have hpad := scanBack_class (· == 61) (not_lt.1 hend) hlen hb
    rw [eq_of_beq hpad]
    decide

/-- A slice at a byte offset, which panics inside a character. -/
def splitAtByte : List Char → ℕ → Option (List Char × List Char)
  | text, 0 => some ([], text)
  | [], _ + 1 => none
  | c :: text, n + 1 =>
    if c.utf8Size ≤ n + 1 then
      (splitAtByte text (n + 1 - c.utf8Size)).map fun (head, tail) => (c :: head, tail)
    else none

lemma splitAtByte_append {text head tail}
    (h : splitAtByte text n = some (head, tail)) : head ++ tail = text := by
  fun_induction splitAtByte text n generalizing head tail with
  | case1 text => cases h; rfl
  | case2 => cases h
  | case3 c text n hsize ih =>
    obtain ⟨⟨head', tail'⟩, hsplit, heq⟩ := Option.map_eq_some_iff.1 h
    cases heq
    rw [cons_append, ih hsplit]
  | case4 => cases h

lemma utf8EncodeChar_tail (c : Char) : ∀ b ∈ (String.utf8EncodeChar c).tail, 128 ≤ b.toNat := by
  have hbyte : ∀ v : ℕ, 128 ≤ (UInt8.ofNat (v % 64 + 128)).toNat := by
    intro v
    rw [UInt8.toNat_ofNat']
    omega
  intro b hb
  simp only [String.utf8EncodeChar] at hb
  split_ifs at hb <;> simp only [tail_cons, mem_cons, not_mem_nil, or_false] at hb
  · rw [hb]; exact hbyte _
  · rcases hb with rfl | rfl <;> exact hbyte _
  · rcases hb with rfl | rfl | rfl <;> exact hbyte _

lemma splitAtByte_boundary (text) (n : ℕ) (hn : n ≤ (text.flatMap String.utf8EncodeChar).length)
    (hascii : ∀ j b, n ≤ j → (text.flatMap String.utf8EncodeChar)[j]? = some b → b.toNat < 128) :
    ∃ parts, splitAtByte text n = some parts := by
  fun_induction splitAtByte text n with
  | case1 text => exact ⟨_, rfl⟩
  | case2 => simp at hn
  | case3 c text n hsize ih =>
    rw [flatMap_cons, length_append, String.length_utf8EncodeChar] at hn
    obtain ⟨parts, hparts⟩ := ih (by omega) fun j b hj hb => by
      refine hascii (j + c.utf8Size) b (by omega) ?_
      rw [flatMap_cons, getElem?_append_right (by simp), String.length_utf8EncodeChar,
        Nat.add_sub_cancel]
      exact hb
    exact ⟨_, by rw [hparts]; rfl⟩
  | case4 c text n hsize =>
    -- The byte at the offset would continue `c`.
    have hlen : n + 1 < (String.utf8EncodeChar c).length := by
      rw [String.length_utf8EncodeChar]
      omega
    have hb := getElem?_eq_getElem hlen
    have hsmall := hascii (n + 1) _ le_rfl (by rw [flatMap_cons, getElem?_append_left hlen, hb])
    have hlarge := utf8EncodeChar_tail c _ (mem_of_getElem? (getElem?_tail.trans hb))
    omega

/-! ## Messages and their encodings -/

inductive ContentType
  | text | image | video | audio | voiceNote | videoNote | file | fileChunk | poll
  deriving DecidableEq

inductive WireCodec
  | json | binaryV1
deriving DecidableEq

/-- The display hints of a medium are one parameter. -/
structure MediaMetadata (D : Type) where
  display : D
  encryptionKey : Option String
  iv : Option String
deriving DecidableEq

def MediaMetadata.hasSecrets {D : Type} (data : MediaMetadata D) : Bool :=
  data.encryptionKey.isSome || data.iv.isSome

def MediaMetadata.withoutSecrets {D : Type} (data : MediaMetadata D) : MediaMetadata D :=
  { data with encryptionKey := none, iv := none }

/-- The fields of a message that travel. -/
structure Fields (D F R : Type) where
  id : FixedBytes 16
  (sender recipient : UserId)
  appId : AppId
  priority : MessagePriority
  (ttl hopCount : UInt8)
  timestamp : Int64
  lamportClock : UInt64
  contentType : ContentType
  content : String
  binaryContent : Option Bytes
  mediaMetadata : Option (MediaMetadata D)
  metadata : MetadataMap
  requiresAck : Bool
  replyToMsg : Option (FixedBytes 16)
  forwardedFrom : Option F
  replyContext : Option R
deriving DecidableEq

structure Message (D F R : Type) extends Fields D F R where
  transportPeerId : Option String
  wireCodec : WireCodec
deriving DecidableEq

structure WireMessageV1 where
  id : FixedBytes 16
  (sender recipient appId : String)
  (priority ttl hopCount : UInt8)
  timestamp : Int64
  lamportClock : UInt64
  contentType : UInt8
  content : String
  (binaryContent mediaMetadataJson : Option Bytes)
  metadata : List (String × String)
  requiresAck : Bool
  replyToMsg : Option (FixedBytes 16)
  forwardedFromJson : Option Bytes
  ext : List (UInt16 × Bytes)

def priorityToU8 : MessagePriority → UInt8
  | .low => 0 | .medium => 1 | .high => 2 | .critical => 3

def priorityFromU8 (v : UInt8) : MessagePriority :=
  if v = 0 then .low else if v = 1 then .medium else if v = 2 then .high
  else if v = 3 then .critical else .medium

def contentTypeToU8 : ContentType → UInt8
  | .text => 0 | .image => 1 | .video => 2 | .audio => 3 | .voiceNote => 4
  | .videoNote => 5 | .file => 6 | .fileChunk => 7 | .poll => 8

def contentTypeFromU8 (v : UInt8) : ContentType :=
  if v = 0 then .text else if v = 1 then .image else if v = 2 then .video
  else if v = 3 then .audio else if v = 4 then .voiceNote else if v = 5 then .videoNote
  else if v = 6 then .file else if v = 7 then .fileChunk else if v = 8 then .poll else .file

lemma fromU8_toU8 (p : MessagePriority) (c) :
    priorityFromU8 (priorityToU8 p) = p ∧ contentTypeFromU8 (contentTypeToU8 c) = c := by
  cases p <;> cases c <;> exact ⟨rfl, rfl⟩

/-- The libraries: postcard, serde_json at each type it is used for, and base64. -/
structure Codecs (D F R : Type) where
  postcard : Codec WireMessageV1
  json : Codec (Fields D F R)
  media : Codec (MediaMetadata D)
  forward : Codec F
  reply : Codec R
  base64Encode : Bytes → String
  base64Decode : String → Option Bytes

/-- Inverse codecs, and a JSON document begins with an opening brace. -/
structure Codecs.Correct {D F R : Type} (C : Codecs D F R) : Prop where
  postcard : C.postcard.Inverse
  json : C.json.Inverse
  media : C.media.Inverse
  forward : C.forward.Inverse
  reply : C.reply.Inverse
  brace : ∀ fields bytes, C.json.encode fields = .ok bytes → bytes.head? = some 0x7B

variable {D F R : Type} (C : Codecs D F R)

def wireV1Magic : UInt8 := 0xF5

def extTagB64Tail : UInt16 := 1

def extTagReplyContext : UInt16 := 2

def splitB64Tail (content : String) : Except Error (Option (String × Bytes)) :=
  if (utf8 content).length < b64TailMinLen then .ok none
  else
    match splitAtByte content.toList (tailStart (utf8 content)) with
    | none => .error .sliced
    | some (head, tail) =>
      if (utf8 (String.ofList tail)).length < b64TailMinLen then .ok none
      else
        match C.base64Decode (String.ofList tail) with
        | none => .ok none
        | some raw =>
          if C.base64Encode raw = String.ofList tail then .ok (some (String.ofList head, raw))
          else .ok none

def encodeB64Tail (raw : Bytes) : String := C.base64Encode raw

/-- What a receiver makes of the two parts of a content. -/
def rejoin (content : String) : Option (String × Bytes) → String
  | some (head, raw) => head ++ encodeB64Tail C raw
  | none => content

/-- The split never panics, and its own comparison makes it exact. -/
lemma splitB64Tail_exact (content : String) :
    ∃ split, splitB64Tail C content = .ok split ∧ rejoin C content split = content := by
  obtain ⟨⟨head, tail⟩, hparts⟩ := splitAtByte_boundary content.toList (tailStart (utf8 content))
    (tailStart_le _) (fun _ _ => tailStart_ascii)
  by_cases hshort : (utf8 content).length < b64TailMinLen
  · exact ⟨none, if_pos hshort, rfl⟩
  by_cases htail : (utf8 (String.ofList tail)).length < b64TailMinLen
  · exact ⟨none, by simp [splitB64Tail, hparts, hshort, htail], rfl⟩
  cases hraw : C.base64Decode (String.ofList tail) with
  | none => exact ⟨none, by simp [splitB64Tail, hparts, hshort, htail, hraw], rfl⟩
  | some raw =>
    by_cases hsame : C.base64Encode raw = String.ofList tail
    · refine ⟨some (String.ofList head, raw),
        by simp [splitB64Tail, hparts, hshort, htail, hraw, hsame], ?_⟩
      rw [rejoin, encodeB64Tail, hsame, ← String.ofList_append, splitAtByte_append hparts,
        String.ofList_toList]
    · exact ⟨none, by simp [splitB64Tail, hparts, hshort, htail, hraw, hsame], rfl⟩

def encode (wire : WireMessageV1) : Except Error Bytes :=
  ((C.postcard.encode wire).map (wireV1Magic :: ·)).mapError
    fun e => .serializationError ("wire v1 encode: " ++ e)

def hexDigit (n : ℕ) : Char := (Nat.digitChar n).toUpper

def decode : Bytes → Except Error WireMessageV1
  | [] => .error (.deserializationError "not a wire v1 frame: empty input")
  | first :: body =>
    if first = wireV1Magic then
      (C.postcard.decode body).mapError fun e => .deserializationError ("wire v1 decode: " ++ e)
    else .error (.deserializationError ("not a wire v1 frame: unexpected leading byte 0x" ++
      String.ofList [hexDigit (first.toNat / 16), hexDigit (first.toNat % 16)]))

lemma encode_ok (hC : C.Correct) (wire : WireMessageV1) :
    ∃ body, encode C wire = .ok (wireV1Magic :: body) ∧
      decode C (wireV1Magic :: body) = .ok wire := by
  obtain ⟨body, henc, hdec⟩ := hC.postcard wire
  exact ⟨body, by rw [encode, henc]; rfl, by rw [decode, if_pos rfl, hdec]; rfl⟩

namespace Message

/-- The frame of a message, once its parts are encoded. -/
def frame (m : Message D F R) (media forward : Option Bytes) (split : Option (String × Bytes))
    (reply : Option Bytes) : WireMessageV1 :=
  { m with
    sender := m.sender.1
    recipient := m.recipient.1
    appId := m.appId.1
    priority := priorityToU8 m.priority
    contentType := contentTypeToU8 m.contentType
    content := match split with
      | some (head, _) => head
      | none => m.content
    mediaMetadataJson := media
    metadata := m.metadata.sorted
    forwardedFromJson := forward
    ext := (split.map fun (_, raw) => (extTagB64Tail, raw)).toList ++
      (reply.map fun bytes => (extTagReplyContext, bytes)).toList }

def toWireV1Bytes (m : Message D F R) : Except Error Bytes := do
  let media ← encodeJson C.media "media_metadata" m.mediaMetadata
  let forward ← encodeJson C.forward "forwarded_from" m.forwardedFrom
  let split ← splitB64Tail C m.content
  let reply ← encodeJson C.reply "reply_context" m.replyContext
  encode C (m.frame media forward split reply)

def fromWireV1Bytes (data : Bytes) : Except Error (Message D F R) := do
  let wire ← decode C data
  -- Only the first entry of a tag is read.
  let content := match wire.ext.find? fun entry => entry.1 == extTagB64Tail with
    | some (_, raw) => wire.content ++ encodeB64Tail C raw
    | none => wire.content
  let media ← decodeJson C.media "media_metadata" wire.mediaMetadataJson
  let forward ← decodeJson C.forward "forwarded_from" wire.forwardedFromJson
  let reply ← decodeJson C.reply "reply_context"
    ((wire.ext.find? fun entry => entry.1 == extTagReplyContext).map Prod.snd)
  let sender ← UserId.new wire.sender
  let recipient ← UserId.new wire.recipient
  let appId ← AppId.new wire.appId
  return { wire with
    sender, recipient, appId, content
    priority := priorityFromU8 wire.priority
    lamportClock := LamportClock.fromValue wire.lamportClock
    contentType := contentTypeFromU8 wire.contentType
    mediaMetadata := media
    metadata := MetadataMap.collect wire.metadata
    forwardedFrom := forward
    replyContext := reply
    transportPeerId := none
    wireCodec := .json }

end Message

/-! ## What comes back -/

/-- Equal fields, with the metadata equal as maps. -/
def Fields.Same (a b : Fields D F R) : Prop :=
  ∃ metadata : MetadataMap, a.metadata.entries.Perm metadata.entries ∧
    b = { a with metadata := metadata }

def Fields.clamped (fields : Fields D F R) : Fields D F R :=
  { fields with lamportClock := LamportClock.fromValue fields.lamportClock }

lemma Fields.clamped_eq {fields : Fields D F R} (h : fields.lamportClock ≤ lamportClockMax) :
    fields.clamped = fields := by
  simp [Fields.clamped, LamportClock.fromValue, h]

/-- A received message: the fields as they were sent, and nothing of the sender's process. -/
structure Received (sent : Fields D F R) (r : Message D F R) : Prop where
  same : sent.clamped.Same r.toFields
  peer : r.transportPeerId = none
  codec : r.wireCodec = .json

/-- The message that a receiver builds from the fields of a sender. -/
def Fields.arrived (fields : Fields D F R) (metadata : MetadataMap) : Message D F R :=
  { fields.clamped with metadata := metadata, transportPeerId := none, wireCodec := .json }

lemma Fields.arrived_received {fields : Fields D F R} (h : entries.Perm fields.metadata.entries) :
    Received fields (fields.arrived (MetadataMap.collect entries)) := by
  have hd : (entries.map Prod.fst).Nodup := (h.map _).nodup_iff.2 fields.metadata.distinct
  refine ⟨⟨_, ?_, rfl⟩, rfl, rfl⟩
  rw [MetadataMap.collect_entries hd]
  exact h.symm

/-- A receiver of a frame undoes each of its parts. -/
lemma frame_arrives {m : Message D F R}
    (hdec : decode C data = .ok (m.frame media forward split reply))
    (hmedia : decodeJson C.media "media_metadata" media = .ok m.mediaMetadata)
    (hforward : decodeJson C.forward "forwarded_from" forward = .ok m.forwardedFrom)
    (hreply : decodeJson C.reply "reply_context" reply = .ok m.replyContext)
    (hsplit : rejoin C m.content split = m.content) :
    Message.fromWireV1Bytes C data =
      .ok (m.toFields.arrived (MetadataMap.collect m.metadata.sorted)) := by
  generalize hwire : m.frame media forward split reply = wire at hdec
  have htail : wire.ext.find? (fun e => e.1 == extTagB64Tail) =
      split.map fun (_, raw) => (extTagB64Tail, raw) := by
    subst hwire
    cases split <;> cases reply <;> rfl
  have hctx : (wire.ext.find? fun e => e.1 == extTagReplyContext).map Prod.snd = reply := by
    subst hwire
    cases split <;> cases reply <;> rfl
  have hcont : (match split.map fun (_, raw) => (extTagB64Tail, raw) with
      | some (_, raw) => wire.content ++ encodeB64Tail C raw
      | none => wire.content) = m.content := by
    subst hwire
    cases split <;> exact hsplit
  have hsend : UserId.new wire.sender = .ok m.sender := hwire ▸ newId_val _
  have hrec : UserId.new wire.recipient = .ok m.recipient := hwire ▸ newId_val _
  have happ : AppId.new wire.appId = .ok m.appId := hwire ▸ newId_val _
  have hmedia' : wire.mediaMetadataJson = media := hwire ▸ rfl
  have hforward' : wire.forwardedFromJson = forward := hwire ▸ rfl
  simp only [Message.fromWireV1Bytes, hdec, bind, Except.bind, htail, hctx, hcont, hmedia',
    hforward', hmedia, hforward, hreply, hsend, hrec, happ]
  subst hwire
  simp only [Message.frame, Fields.arrived, Fields.clamped, fromU8_toU8 m.priority m.contentType]
  rfl

lemma toWireV1Bytes_ok (hC : C.Correct) (m : Message D F R) :
    ∃ body r, m.toWireV1Bytes C = .ok (wireV1Magic :: body) ∧
      Message.fromWireV1Bytes C (wireV1Magic :: body) = .ok r ∧ Received m.toFields r := by
  obtain ⟨media, hmedia, hmedia'⟩ := encodeJson_ok hC.media "media_metadata" m.mediaMetadata
  obtain ⟨forward, hforward, hforward'⟩ :=
    encodeJson_ok hC.forward "forwarded_from" m.forwardedFrom
  obtain ⟨split, hsplit, hrej⟩ := splitB64Tail_exact C m.content
  obtain ⟨reply, hreply, hrepl'⟩ := encodeJson_ok hC.reply "reply_context" m.replyContext
  obtain ⟨body, henc, hdec⟩ := encode_ok C hC (m.frame media forward split reply)
  refine ⟨body, _, ?_, frame_arrives C hdec hmedia' hforward' hrepl' hrej,
    Fields.arrived_received m.metadata.sorted_perm⟩
  simp only [Message.toWireV1Bytes, hmedia, hforward, hsplit, hreply, ← henc]
  rfl

/-- **A frame of version 1 brings back the message.** Whatever the content is, encoding
and decoding succeed and every field that travels is as it was; a content is always the
head and the encoded tail it was split into. -/
theorem wire_v1_round_trip (hC : C.Correct) (m : Message D F R)
    (hclock : m.lamportClock ≤ lamportClockMax) :
    (∃ bytes r, m.toWireV1Bytes C = .ok bytes ∧ Message.fromWireV1Bytes C bytes = .ok r ∧
      m.toFields.Same r.toFields) ∧
    ∀ content, ∃ split, splitB64Tail C content = .ok split ∧ rejoin C content split = content := by
  obtain ⟨body, r, hto, hfrom, hr⟩ := toWireV1Bytes_ok C hC m
  exact ⟨⟨_, r, hto, hfrom, Fields.clamped_eq hclock ▸ hr.same⟩, splitB64Tail_exact C⟩

/-! ## The transport -/

inductive TransportError
  | serializationError (text : String)
  | core (error : Error)

def sanitizeForWire (m : Message D F R) : Message D F R :=
  match m.mediaMetadata with
  | some data =>
    if data.hasSecrets then { m with mediaMetadata := some data.withoutSecrets } else m
  | none => m

def serializeMessage (m : Message D F R) : Except TransportError Bytes :=
  (C.json.encode (sanitizeForWire m).toFields).mapError
    fun e => .serializationError ("Failed to serialize message: " ++ e)

def serializeMessageWith (m : Message D F R) : Except TransportError Bytes :=
  match m.wireCodec with
  | .binaryV1 => ((sanitizeForWire m).toWireV1Bytes C).mapError .core
  | .json => serializeMessage C m

/-- The decoder of JSON clamps the clock and fills a map of its own. -/
def deserializeMessage (data : Bytes) : Except TransportError (Message D F R) :=
  if data.head? = some wireV1Magic then (Message.fromWireV1Bytes C data).mapError .core
  else
    ((C.json.decode data).map fun fields =>
      fields.arrived (MetadataMap.collect fields.metadata.entries)).mapError
        fun e => .serializationError ("Failed to deserialize message: " ++ e)

/-- A message as it may be seen. -/
def Message.withoutSecrets (m : Message D F R) : Message D F R :=
  { m with mediaMetadata := m.mediaMetadata.map MediaMetadata.withoutSecrets }

lemma Message.withoutSecrets_eq_self {m : Message D F R}
    (h : m.mediaMetadata.map MediaMetadata.withoutSecrets = m.mediaMetadata) :
    m.withoutSecrets = m := by
  rw [Message.withoutSecrets, h]

lemma sanitizeForWire_eq (m : Message D F R) : sanitizeForWire m = m.withoutSecrets := by
  unfold sanitizeForWire
  cases hmedia : m.mediaMetadata with
  | none => exact (Message.withoutSecrets_eq_self (by simp [hmedia])).symm
  | some data =>
    by_cases hs : data.hasSecrets
    · simp [hs, Message.withoutSecrets, hmedia]
    · have hclean : data.withoutSecrets = data := by
        rcases data with ⟨display, _ | key, _ | iv⟩ <;> simp_all [MediaMetadata.hasSecrets,
          MediaMetadata.withoutSecrets]
      simp only [hs]
      exact (Message.withoutSecrets_eq_self (by simp [hmedia, hclean])).symm

/-- Messages that are equal but for the key and the vector of their media. -/
structure DifferInSecrets (m m' : Message D F R) : Prop where
  fields : m.withoutSecrets.toFields.Same m'.withoutSecrets.toFields
  peer : m.transportPeerId = m'.transportPeerId
  codec : m.wireCodec = m'.wireCodec

lemma serializeMessageWith_ok (hC : C.Correct) (m : Message D F R) :
    ∃ bytes r, serializeMessageWith C m = .ok bytes ∧ deserializeMessage C bytes = .ok r ∧
      Received m.withoutSecrets.toFields r := by
  unfold serializeMessageWith serializeMessage
  rw [sanitizeForWire_eq]
  cases m.wireCodec with
  | binaryV1 =>
    obtain ⟨body, r, hto, hfrom, hr⟩ := toWireV1Bytes_ok C hC m.withoutSecrets
    refine ⟨_, r, by simp only [hto]; rfl, ?_, hr⟩
    simp only [deserializeMessage, head?_cons, hfrom]
    rfl
  | json =>
    obtain ⟨bytes, henc, hdec⟩ := hC.json m.withoutSecrets.toFields
    have hbrace := hC.brace _ _ henc
    refine ⟨bytes, _, by simp only [henc]; rfl, ?_, Fields.arrived_received (Perm.refl _)⟩
    rw [deserializeMessage, hbrace, if_neg (by decide), hdec]
    rfl

lemma toWireV1Bytes_same {m m' : Message D F R} (h : m.toFields.Same m'.toFields) :
    m.toWireV1Bytes C = m'.toWireV1Bytes C := by
  rcases m' with ⟨fields, peer, codec⟩
  obtain ⟨metadata, hperm, rfl⟩ := h
  have hsort : m.metadata.sorted = metadata.sorted := MetadataMap.sorted_eq hperm
  simp only [Message.toWireV1Bytes, Message.frame, hsort]

/-- **Secrets stay off the wire.** Messages that differ in their media secrets only give
the same bytes: as a frame always, as a document where their metadata iterate alike. What
is read back from either is the message without its secrets. -/
theorem secrets_stay_off_the_wire (hC : C.Correct) :
    (∀ m m' : Message D F R, DifferInSecrets m m' →
      m.wireCodec = .binaryV1 ∨ m.metadata.entries = m'.metadata.entries →
      serializeMessageWith C m = serializeMessageWith C m') ∧
    ∀ m : Message D F R, m.lamportClock ≤ lamportClockMax →
      ∃ bytes r, serializeMessageWith C m = .ok bytes ∧ deserializeMessage C bytes = .ok r ∧
        m.withoutSecrets.toFields.Same r.toFields := by
  constructor
  · intro m m' h horder
    unfold serializeMessageWith serializeMessage
    rw [sanitizeForWire_eq, sanitizeForWire_eq, ← h.codec, toWireV1Bytes_same C h.fields]
    cases hcodec : m.wireCodec with
    | binaryV1 => rfl
    | json =>
      obtain ⟨metadata, hperm, heq⟩ := h.fields
      have hmap : metadata = m.metadata := by
        have hm' : m'.metadata = metadata := congrArg Fields.metadata heq
        rcases horder with hbin | hentries
        · simp [hbin] at hcodec
        · exact MetadataMap.ext (by rw [hentries, hm'])
      rw [heq, hmap]
      rfl
  · intro m hclock
    obtain ⟨bytes, r, hser, hdes, hr⟩ := serializeMessageWith_ok C hC m
    have hkept : m.withoutSecrets.toFields.clamped = m.withoutSecrets.toFields :=
      Fields.clamped_eq hclock
    exact ⟨bytes, r, hser, hdes, hkept ▸ hr.same⟩

/-! ## Codecs of these laws -/

open Postcard (Format)

def codecOf (format : Format α) (opening : Bytes) : Codec α where
  encode a := .ok (opening ++ format.write a)
  decode bytes :=
    match format.read (bytes.drop opening.length) with
    | some (a, _) => .ok a
    | none => .error "Hit the end of buffer, expected more data"

lemma codecOf_inverse {format : Format α} {opening} : (codecOf format opening).Inverse := by
  intro a
  refine ⟨_, rfl, ?_⟩
  have hread := format.read_write a []
  rw [append_nil] at hread
  simp [codecOf, hread]

def uint64 : Format UInt64 := (Format.number 64).mapped UInt64.toBitVec (some ⟨·⟩) fun _ => rfl

/-- The layout of a frame, field after field. -/
def wireFormat : Format WireMessageV1 :=
  (.pair (.fixed 16) <| .pair .text <| .pair .text <| .pair .text <| .pair .byte <| .pair .byte <|
    .pair .byte <| .pair .zigzag <| .pair uint64 <| .pair .byte <| .pair .text <|
    .pair (.option .bytes) <| .pair (.option .bytes) <| .pair (.list (.pair .text .text)) <|
    .pair .bool <| .pair (.option (.fixed 16)) <| .pair (.option .bytes) <|
    .list (.pair ((Format.number 16).mapped UInt16.toBitVec (some ⟨·⟩) fun _ => rfl) .bytes) :
      Format _).mapped
    (fun w => (w.id, w.sender, w.recipient, w.appId, w.priority, w.ttl, w.hopCount, w.timestamp,
      w.lamportClock, w.contentType, w.content, w.binaryContent, w.mediaMetadataJson, w.metadata,
      w.requiresAck, w.replyToMsg, w.forwardedFromJson, w.ext))
    (fun (id, sender, recipient, appId, priority, ttl, hopCount, timestamp, lamportClock,
        contentType, content, binaryContent, mediaMetadataJson, metadata, requiresAck, replyToMsg,
        forwardedFromJson, ext) =>
      some ⟨id, sender, recipient, appId, priority, ttl, hopCount, timestamp, lamportClock,
        contentType, content, binaryContent, mediaMetadataJson, metadata, requiresAck, replyToMsg,
        forwardedFromJson, ext⟩)
    fun _ => rfl

def idFormat (typeName : String) : Format (ValidId typeName) :=
  Format.text.mapped Subtype.val (fun id => (newId typeName .invalidUserId id).toOption)
    fun id => by rw [newId_val]; rfl

def mapFormat : Format MetadataMap :=
  (Format.list (.pair .text .text)).mapped MetadataMap.entries
    (fun entries => if h : (entries.map Prod.fst).Nodup then some ⟨entries, h⟩ else none)
    fun map => by rw [dif_pos map.distinct]

def mediaFormat : Format (MediaMetadata Unit) :=
  (Format.pair (.option .text) (.option .text)).mapped (fun d => (d.encryptionKey, d.iv))
    (fun (key, iv) => some ⟨(), key, iv⟩) fun _ => rfl

def fieldsFormat : Format (Fields Unit Unit Unit) :=
  (.pair (.fixed 16) <| .pair (idFormat "User ID") <| .pair (idFormat "User ID") <|
    .pair (idFormat "App ID") <| .pair (.pair .byte .byte) <| .pair .byte <| .pair .byte <|
    .pair .zigzag <| .pair uint64 <| .pair .text <| .pair (.option .bytes) <|
    .pair (.option mediaFormat) <| .pair mapFormat <| .pair .bool <|
    .pair (.option (.fixed 16)) <| .pair .bool .bool : Format _).mapped
    (fun f => (f.id, f.sender, f.recipient, f.appId,
      (priorityToU8 f.priority, contentTypeToU8 f.contentType), f.ttl, f.hopCount, f.timestamp,
      f.lamportClock, f.content, f.binaryContent, f.mediaMetadata, f.metadata, f.requiresAck,
      f.replyToMsg, f.forwardedFrom.isSome, f.replyContext.isSome))
    (fun (id, sender, recipient, appId, (priority, contentType), ttl, hopCount, timestamp,
        lamportClock, content, binaryContent, mediaMetadata, metadata, requiresAck, replyToMsg,
        forwarded, replies) =>
      some ⟨id, sender, recipient, appId, priorityFromU8 priority, ttl, hopCount, timestamp,
        lamportClock, contentTypeFromU8 contentType, content, binaryContent, mediaMetadata, metadata,
        requiresAck, replyToMsg, if forwarded then some () else none,
        if replies then some () else none⟩)
    fun f => by
      have hunit (part : Option Unit) : (if part.isSome then some () else none) = part := by
        cases part <;> rfl
      simp only [fromU8_toU8 f.priority f.contentType, hunit]

def b64Alphabet : List Char :=
  "ABCDEFGHIJKLMNOPQRSTUVWXYZabcdefghijklmnopqrstuvwxyz0123456789+/".toList

def b64Char (n : ℕ) : Char := b64Alphabet.getD n '='

def b64Encode : Bytes → List Char
  | [] => []
  | [a] => [b64Char (a.toNat / 4), b64Char (a.toNat % 4 * 16), '=', '=']
  | [a, b] =>
    [b64Char (a.toNat / 4), b64Char (a.toNat % 4 * 16 + b.toNat / 16), b64Char (b.toNat % 16 * 4), '=']
  | a :: b :: c :: rest =>
    [b64Char (a.toNat / 4), b64Char (a.toNat % 4 * 16 + b.toNat / 16),
      b64Char (b.toNat % 16 * 4 + c.toNat / 64), b64Char (c.toNat % 64)] ++ b64Encode rest

def b64Value (c : Char) : Option ℕ := b64Alphabet.idxOf? c

def b64Decode : List Char → Option Bytes
  | [] => some []
  | a :: b :: c :: d :: rest => do
    let a ← b64Value a
    let b ← b64Value b
    if d = '=' then
      guard (rest = [])
      if c = '=' then
        guard (b % 16 = 0)
        return [UInt8.ofNat (a * 4 + b / 16)]
      let c ← b64Value c
      guard (c % 4 = 0)
      return [UInt8.ofNat (a * 4 + b / 16), UInt8.ofNat (b % 16 * 16 + c / 4)]
    let c ← b64Value c
    let d ← b64Value d
    let bytes ← b64Decode rest
    return UInt8.ofNat (a * 4 + b / 16) :: UInt8.ofNat (b % 16 * 16 + c / 4) ::
      UInt8.ofNat (c % 4 * 64 + d) :: bytes
  | _ => none

lemma b64Value_b64Char : ∀ n < 64, b64Value (b64Char n) = some n ∧ b64Char n ≠ '=' := by
  decide +kernel

lemma b64Decode_b64Encode (bytes : Bytes) : b64Decode (b64Encode bytes) = some bytes := by
  have hval {n : ℕ} (h : n < 64) := (b64Value_b64Char n h).1
  have hpad {n : ℕ} (h : n < 64) := (b64Value_b64Char n h).2
  have hbyte {n : ℕ} {b : UInt8} (h : n = b.toNat) : UInt8.ofNat n = b := by simp [h]
  fun_induction b64Encode bytes with
  | case1 => rfl
  | case2 a =>
    have ha := a.toNat_lt
    simp [b64Decode, -UInt8.ofNat_add, -UInt8.ofNat_mul, hval (show a.toNat / 4 < 64 by omega),
      hval (show a.toNat % 4 * 16 < 64 by omega)]
    exact hbyte (by omega)
  | case3 a b =>
    have ha := a.toNat_lt
    have hb := b.toNat_lt
    have hthird : b.toNat % 16 * 4 < 64 := by omega
    simp [b64Decode, -UInt8.ofNat_add, -UInt8.ofNat_mul, hval (show a.toNat / 4 < 64 by omega),
      hval (show a.toNat % 4 * 16 + b.toNat / 16 < 64 by omega), hval hthird, hpad hthird]
    exact ⟨hbyte (by omega), hbyte (by omega)⟩
  | case4 a b c rest ih =>
    have ha := a.toNat_lt
    have hb := b.toNat_lt
    have hc := c.toNat_lt
    have hlast : c.toNat % 64 < 64 := by omega
    simp [b64Decode, -UInt8.ofNat_add, -UInt8.ofNat_mul, hval (show a.toNat / 4 < 64 by omega),
      hval (show a.toNat % 4 * 16 + b.toNat / 16 < 64 by omega),
      hval (show b.toNat % 16 * 4 + c.toNat / 64 < 64 by omega), hval hlast, hpad hlast, ih]
    exact ⟨hbyte (by omega), hbyte (by omega), hbyte (by omega)⟩

/-- Postcard and base64 as they are. In the place of the JSON documents stand records
behind an opening brace, for messages without display hints. -/
def plainCodecs : Codecs Unit Unit Unit where
  postcard := codecOf wireFormat []
  json := codecOf fieldsFormat [0x7B]
  media := codecOf mediaFormat [0x7B]
  forward := codecOf ⟨fun _ => [], fun bytes => some ((), bytes), fun _ _ => rfl⟩ [0x7B]
  reply := codecOf ⟨fun _ => [], fun bytes => some ((), bytes), fun _ _ => rfl⟩ [0x7B]
  base64Encode bytes := String.ofList (b64Encode bytes)
  base64Decode text := b64Decode text.toList

lemma plainCodecs_correct : plainCodecs.Correct where
  postcard := codecOf_inverse
  json := codecOf_inverse
  media := codecOf_inverse
  forward := codecOf_inverse
  reply := codecOf_inverse
  brace _ _ h := by cases h; rfl

def note (clock : UInt64) (metadata : MetadataMap) (key : Option String) :
    Message Unit Unit Unit where
  id := ⟨replicate 16 0, rfl⟩
  sender := ⟨"a", by rfl⟩
  recipient := ⟨"b", by rfl⟩
  appId := ⟨"c", by rfl⟩
  priority := .medium
  ttl := 8
  hopCount := 0
  timestamp := 0
  lamportClock := clock
  contentType := .image
  content := "hi"
  binaryContent := none
  mediaMetadata := some ⟨(), key, none⟩
  metadata := metadata
  requiresAck := true
  replyToMsg := none
  forwardedFrom := none
  replyContext := none
  transportPeerId := none
  wireCodec := .json

def firstX : MetadataMap := ⟨[("x", ""), ("y", "")], by simp⟩

def firstY : MetadataMap := ⟨[("y", ""), ("x", "")], by simp⟩

/-- A sealed content: a prefix, and 48 bytes in base64. -/
def sealedNote : Message Unit Unit Unit :=
  { note 7 firstX none with
    content := "__MLS_ENC__AAECAwQFBgcICQoLDA0ODxAREhMUFRYXGBkaGxwdHh8gISIjJCUmJygpKissLS4v" }

theorem wire_v1_round_trip_note :
    splitB64Tail plainCodecs sealedNote.content =
        .ok (some ("__MLS_ENC__", (range 48).map UInt8.ofNat)) ∧
      ∃ bytes r, sealedNote.toWireV1Bytes plainCodecs = .ok bytes ∧
        Message.fromWireV1Bytes plainCodecs bytes = .ok r ∧
        sealedNote.toFields.Same r.toFields :=
  ⟨by decide +kernel,
    (wire_v1_round_trip plainCodecs plainCodecs_correct sealedNote (by decide)).1⟩

theorem secrets_stay_off_the_wire_key :
    serializeMessageWith plainCodecs (note 7 firstX (some "key")) =
      serializeMessageWith plainCodecs (note 7 firstX none) :=
  (secrets_stay_off_the_wire plainCodecs plainCodecs_correct).1 _ _
    ⟨⟨_, Perm.refl _, rfl⟩, rfl, rfl⟩ (.inr rfl)

/-- A clock one past the maximum comes back clamped, and a document shows the order in
which its metadata iterate. -/
theorem late_clock_and_order_differ :
    plainCodecs.Correct ∧
    (¬ ∃ bytes r, serializeMessageWith plainCodecs (note (lamportClockMax + 1) firstX none) =
        .ok bytes ∧ deserializeMessage plainCodecs bytes = .ok r ∧
      (note (lamportClockMax + 1) firstX none).withoutSecrets.toFields.Same r.toFields) ∧
    DifferInSecrets (note 7 firstX (some "key")) (note 7 firstY none) ∧
    serializeMessageWith plainCodecs (note 7 firstX (some "key")) ≠
      serializeMessageWith plainCodecs (note 7 firstY none) := by
  have hswap : firstX.entries.Perm firstY.entries := .swap _ _ _
  refine ⟨plainCodecs_correct, ?_, ⟨⟨firstY, hswap, rfl⟩, rfl, rfl⟩, ?_⟩
  · rintro ⟨bytes, r, hser, hdes, metadata, -, heq⟩
    obtain ⟨bytes', r', hser', hdes', ⟨metadata', -, heq'⟩, -, -⟩ :=
      serializeMessageWith_ok plainCodecs plainCodecs_correct
        (note (lamportClockMax + 1) firstX none)
    obtain rfl : bytes = bytes' := Except.ok.inj (hser.symm.trans hser')
    obtain rfl : r = r' := Except.ok.inj (hdes.symm.trans hdes')
    have hclock : lamportClockMax + 1 = LamportClock.fromValue (lamportClockMax + 1) :=
      congrArg Fields.lamportClock (heq.symm.trans heq')
    cases hclock
  · intro hsame
    have hbytes : fieldsFormat.write (note 7 firstX none).toFields ≠
        fieldsFormat.write (note 7 firstY none).toFields := by decide +kernel
    exact hbytes (cons.inj (Except.ok.inj hsame)).2

end Wire

end OfflineProtocol
