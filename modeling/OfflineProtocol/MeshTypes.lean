import OfflineProtocol.Message
import Mathlib.Data.Finset.Insert

/-! The records the forwarding queue and the custody store hand each other, and
the occurrences a device's forwarding history is made of. -/
namespace OfflineProtocol

structure PendingRelay where
  message : Message
  arrivalPeer : Option PeerId
  heardFrom : List PeerId
  dueAt : ℕ
  custodyRequest : Option String
  custodyTarget : Option PeerId
deriving DecidableEq

def PendingRelay.hearFrom (r : PendingRelay) (peer : PeerId) : PendingRelay :=
  { r with heardFrom := r.heardFrom ++ [peer] }

structure HeldFrame where
  message : Message
  depositor : PeerId
  acceptedAtMs : ℤ
  frameClass : String
  bytes : ℕ
  tried : Finset PeerId
  inFlight : Option PeerId
deriving DecidableEq

/-- What happens to forwards, suppression entries and held frames. Where the
source adds one to a counter, the model emits the occurrence that is counted. -/
inductive MeshEvent
  /-- The clock read by the operation that follows. -/
  | tick (now : ℕ)
  /-- A third-party frame was offered, over the link of a neighbor if known. -/
  | arrived (message : Message) (peer : Option PeerId)
  /-- The suppression cache released its aged entries. -/
  | expired
  /-- The suppression cache dropped an id for lack of room. -/
  | capacityDropped (id : MessageId)
  /-- A pending forward made room for one of higher priority. -/
  | displaced (relay : PendingRelay)
  /-- A further copy took its sender off a pending forward's fan-out. -/
  | narrowed (relay : PendingRelay) (peer : PeerId)
  /-- A frame was accepted for forwarding and its id recorded as handled. -/
  | queued (relay : PendingRelay) (originResend : Bool)
  /-- A held frame was queued toward a neighbor. -/
  | queuedHeld (relay : PendingRelay) (peer : PeerId)
  /-- An ordinary forward waited past the overdue cut-off. -/
  | abandoned (relay : PendingRelay)
  /-- An ordinary forward was handed to these neighbors. -/
  | carried (relay : PendingRelay) (peers : List PeerId)
  /-- An ordinary forward was dropped because its neighbors hold the frame. -/
  | covered (relay : PendingRelay) (linked : List PeerId)
  /-- An ordinary forward was refused room on its way back to the queue. -/
  | refused (relay : PendingRelay)
  /-- A marked forward was handed to a neighbor that is not the recipient. -/
  | reOriginated (relay : PendingRelay) (peer : PeerId)
  /-- A marked forward was handed to its recipient. -/
  | delivered (relay : PendingRelay) (peer : PeerId)
  /-- A marked forward reached no link and came back to the store. -/
  | returned (relay : PendingRelay)
  /-- A frame was taken into custody. -/
  | deposited (frame : HeldFrame)
  /-- A held frame was evicted or reached the end of its hold. -/
  | dropped (id : MessageId)
  /-- The custody store was erased. -/
  | erased
  /-- An id was recorded as handled without a forward. -/
  | handled (id : MessageId)
deriving DecidableEq

end OfflineProtocol
