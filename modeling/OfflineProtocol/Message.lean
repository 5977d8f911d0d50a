import OfflineProtocol.KeyedTable
import Mathlib.Algebra.GroupWithZero.Nat

/-! The message envelope, as far as forwarding, custody and the pending queue
read it. -/
namespace OfflineProtocol
open KeyedTable

abbrev MessageId := String

abbrev PeerId := String

inductive MessagePriority
  | low
  | medium
  | high
  | critical
deriving DecidableEq

inductive TransportType
  | internet
  | ble
  | wifiDirect
  | reticulum
  | nostr
deriving DecidableEq

inductive OverflowPolicy
  | dropOldest
  | dropNewest
deriving DecidableEq

structure MediaMetadata where
  mimeType : String
  fileName : String
  thumbnailBase64 : Option String
deriving DecidableEq

structure Message where
  id : MessageId
  sender : PeerId
  recipient : PeerId
  appId : String
  priority : MessagePriority
  ttl : UInt8
  hopCount : UInt8
  content : String
  binaryContent : Option (List UInt8)
  mediaMetadata : Option MediaMetadata
  metadata : Table String String
deriving DecidableEq

namespace Message

def decrementTtl (ttl : UInt8) : Option UInt8 :=
  if 1 < ttl then some (ttl - 1) else none

def incrementHop (m : Message) : Message :=
  if m.hopCount.toNat < 255 then { m with hopCount := m.hopCount + 1 } else m

def contentStartsWith (m : Message) (start : String) : Bool :=
  start.toList.isPrefixOf m.content.toList

def footprint (m : Message) : ℕ :=
  let metadataBytes :=
    (m.metadata.entries.map fun e => e.1.utf8ByteSize + e.2.utf8ByteSize).sum
  let mediaBytes :=
    match m.mediaMetadata with
    | some media => media.mimeType.utf8ByteSize + media.fileName.utf8ByteSize +
        (media.thumbnailBase64.map String.utf8ByteSize).getD 0
    | none => 0
  m.content.utf8ByteSize + (m.binaryContent.map List.length).getD 0 + m.sender.utf8ByteSize +
    m.recipient.utf8ByteSize + m.appId.utf8ByteSize + metadataBytes + mediaBytes

end Message

end OfflineProtocol
