import OfflineProtocol.MeshTypes
import OfflineProtocol.RelaySeen
import OfflineProtocol.TokenBudget
import Mathlib.Data.List.MinMax
import Mathlib.Data.List.Sort

/-! Admission control and pacing for mesh forwarding. Each function takes the
clock reading it would make as an argument, and returns the occurrences it
would count beside its answer. -/
namespace OfflineProtocol
open KeyedTable AirArith

def relayMaxHopCount : ℕ := 16

def relayQueueMaxOverdue : ℕ := 5000

def maxRelayRatePeers : ℕ := 256

def relayOwnTrafficReserve : ℕ := 5

def custodyMetaKey : String := "__custody"

structure MeshNeighbor where
  peerId : PeerId
  linkQuality : ℕ
  transport : TransportType
deriving DecidableEq

structure MeshRelayConfig (F : Type*) where
  maxTtl : UInt8
  denseMaxTtl : UInt8
  denseDegree : ℕ
  fanout : ℕ
  jitterMin : ℕ
  jitterMax : ℕ
  ratePerSec : F
  burst : F
  peerRatePerSec : F
  peerBurst : F
  queueCapacity : ℕ
  seen : RelaySeenConfig
  biasMinScale : F
  biasMaxHandicap : ℕ
  activityWindow : ℕ
  activityMinForwards : ℕ
  activityIdleWindows : ℕ

def MeshRelayConfig.default {F : Type*} [AirArith F] : MeshRelayConfig F where
  maxTtl := 8
  denseMaxTtl := 5
  denseDegree := 6
  fanout := 3
  jitterMin := 20
  jitterMax := 200
  ratePerSec := ofCount 10
  burst := ofCount 30
  peerRatePerSec := ofCount 5
  peerBurst := ofCount 15
  queueCapacity := 256
  seen := .default
  biasMinScale := 1 / ofCount 4
  biasMaxHandicap := 400
  activityWindow := 60000
  activityMinForwards := 3
  activityIdleWindows := 2

structure RelayConditions where
  battery : Option ℕ
  isCharging : Bool
  eager : Bool
  softFloor : ℕ

inductive RelayActivity
  | began (forwarded : ℕ)
  | ceased
deriving DecidableEq

inductive RelayRejection
  | alreadySeen
  | narrowedByDuplicate
  | hopLimitReached
  | peerRateLimited
  | queueFull
deriving DecidableEq

inductive RelayAdmission
  | queued
  | rejected (reason : RelayRejection)
deriving DecidableEq

structure MeshRelayGovernor (F : Type*) where
  config : MeshRelayConfig F
  seen : RelaySeenCache
  pending : List PendingRelay
  sendBudget : TokenBucket F
  forwardBudget : TokenBucket F
  ownReserve : F
  peerBudgets : Table PeerId (TokenBucket F)
  localId : String
  conditions : RelayConditions
  activeRelay : Bool
  windowStartedAt : ℕ
  windowForwards : ℕ
  idleWindows : ℕ

def priorityRank : MessagePriority → ℕ
  | .low => 0
  | .medium => 1
  | .high => 2
  | .critical => 3

/-- What the governor cannot compute from its own state: the stable hash of
its seeds, and the order in which a hash map happens to be walked. -/
structure HashHost where
  hashOf : List String → ℕ
  walk : List PeerId → List PeerId

namespace MeshRelayGovernor
variable {F : Type*} [AirArith F]
variable (host : HashHost)
variable (g : MeshRelayGovernor F) (candidate : Message) (message : Message)
  (arrival : Option PeerId) (id : MessageId) (degree : ℕ) (now : ℕ)

def withConfig (localId : String) (config : MeshRelayConfig F) (now : ℕ) :
    MeshRelayGovernor F where
  config := config
  seen := RelaySeenCache.withConfig config.seen
  pending := []
  sendBudget := .new config.burst config.ratePerSec now
  forwardBudget := .new config.burst config.ratePerSec now
  ownReserve := min (ofCount relayOwnTrafficReserve)
    (max config.burst 0 / ofCount 2)
  peerBudgets := ∅
  localId := localId
  conditions := { battery := none, isCharging := false, eager := false, softFloor := 0 }
  activeRelay := false
  windowStartedAt := now
  windowForwards := 0
  idleWindows := 0

def setLocalId (localId : String) : MeshRelayGovernor F :=
  { g with localId := localId }

def biasScale : F :=
  let minScale := clamp01 g.config.biasMinScale
  if g.conditions.isCharging || g.conditions.eager then 1
  else
    match g.conditions.battery with
    | none => 1
    | some level =>
      let floor := min g.conditions.softFloor 100
      if 100 ≤ level then 1
      else if level ≤ floor then minScale
      else
        let headroom : F := ofCount (level - floor) / ofCount (max (100 - floor) 1)
        minScale + headroom * (1 - minScale)

def setConditions (conditions : RelayConditions) (now : ℕ) :
    MeshRelayGovernor F :=
  let g := { g with conditions := conditions }
  { g with
    forwardBudget := g.forwardBudget.resize (g.config.burst * g.biasScale)
      (g.config.ratePerSec * g.biasScale) now }

def observeActivity :
    MeshRelayGovernor F × Option RelayActivity :=
  if now - g.windowStartedAt < g.config.activityWindow then (g, none)
  else
    let forwarded := g.windowForwards
    let g := { g with windowForwards := 0, windowStartedAt := now }
    if max g.config.activityMinForwards 1 ≤ forwarded then
      let g := { g with idleWindows := 0 }
      if g.activeRelay then (g, none)
      else ({ g with activeRelay := true }, some (.began forwarded))
    else if !g.activeRelay then (g, none)
    else
      let g := { g with idleWindows := g.idleWindows + 1 }
      if max g.config.activityIdleWindows 1 ≤ g.idleWindows then
        ({ g with activeRelay := false }, some .ceased)
      else (g, none)

def forceInactive : MeshRelayGovernor F × Bool :=
  ({ g with windowForwards := 0, idleWindows := 0, activeRelay := false }, g.activeRelay)

def prepareHop : Option Message :=
  if relayMaxHopCount ≤ message.hopCount.toNat then none
  else
    let ceiling := if g.config.denseDegree ≤ degree then g.config.denseMaxTtl else g.config.maxTtl
    match Message.decrementTtl (min message.ttl ceiling) with
    | none => none
    | some remaining =>
      let forwarded := Message.incrementHop { message with ttl := remaining }
      some { forwarded with metadata := forwarded.metadata.erase custodyMetaKey }

def lowerPriority (p : PendingRelay) : Bool :=
  decide (priorityRank p.message.priority < priorityRank candidate.priority)

def evictionVictim (pending : List PendingRelay) (candidate : Message) (now : ℕ) :
    Option PendingRelay :=
  let rank := fun p : PendingRelay => priorityRank p.message.priority
  ((pending.filter fun p => lowerPriority candidate p && decide (now < p.dueAt)).argmin rank).or
    ((pending.filter (lowerPriority candidate)).argmin rank)

def evictFor :
    Option (MeshRelayGovernor F × PendingRelay) :=
  (evictionVictim g.pending candidate now).map fun displaced =>
    ({ g with
        pending := g.pending.erase displaced
        seen := g.seen.forget displaced.message.id }, displaced)

def mostRecovered (budgets : Table PeerId (TokenBucket F)) : Option PeerId :=
  let listed := (host.walk budgets.keys).filterMap fun p => (get budgets p).map (p, ·)
  (listed.foldl (fun best c =>
    match best with
    | none => some c
    | some b => if ltB c.2.tokens b.2.tokens then some b else some c) none).map Prod.fst

def takePeerToken (peer : PeerId) (now : ℕ) :
    MeshRelayGovernor F × Bool :=
  let budgets :=
    if peer ∈ g.peerBudgets then g.peerBudgets
    else
      let budgets :=
        if maxRelayRatePeers ≤ g.peerBudgets.entries.length then
          let refilled := mapValues g.peerBudgets fun _ b => b.refill now
          match mostRecovered host refilled with
          | some p => refilled.erase p
          | none => refilled
        else g.peerBudgets
      budgets.insert peer (.new g.config.peerBurst g.config.peerRatePerSec now)
  match get budgets peer with
  | some b =>
    let r := b.tryTakeAbove 0 now
    ({ g with peerBudgets := budgets.insert peer r.1 }, r.2)
  | none => ({ g with peerBudgets := budgets }, true)

def jitterFor : ℕ :=
  let minMs := g.config.jitterMin
  let maxMs := max g.config.jitterMax minMs
  let densityScale := 1 + degree / max g.config.denseDegree 1
  let span := max (min ((maxMs - minMs) * densityScale) (2 ^ 64 - 1)) 1
  let handicap := truncate
    (clamp01 (1 - g.biasScale) * ofCount g.config.biasMaxHandicap)
  minMs + handicap + host.hashOf [id, g.localId] % span

def isOriginResend : Bool :=
  decide (arrival = some message.sender) && decide (message.hopCount = 0) &&
    !g.pending.any fun p => decide (p.message.id = message.id)

def narrow (p : PendingRelay) (arrival : Option PeerId) : PendingRelay × List MeshEvent :=
  match arrival with
  | some peer =>
    if p.arrivalPeer ≠ some peer ∧ peer ∉ p.heardFrom then
      (p.hearFrom peer, [.narrowed p peer])
    else (p, [])
  | none => (p, [])

def narrowFirst (id : MessageId) (arrival : Option PeerId) :
    List PendingRelay → Option (List PendingRelay × List MeshEvent)
  | [] => none
  | p :: ps =>
    if p.message.id = id then some ((narrow p arrival).1 :: ps, (narrow p arrival).2)
    else (narrowFirst id arrival ps).map fun r => (p :: r.1, r.2)

def makeRoom :
    Option (MeshRelayGovernor F × List MeshEvent) :=
  if g.config.queueCapacity ≤ g.pending.length then
    (g.evictFor message now).map fun r => (r.1, [.displaced r.2])
  else some (g, [])

def accept (relay : PendingRelay) (originResend : Bool) (now : ℕ) :
    MeshRelayGovernor F × List MeshEvent :=
  let id := relay.message.id
  let seen := if originResend then g.seen.forget id else g.seen
  let r := seen.observe now id
  ({ g with seen := r.1, pending := g.pending ++ [relay] },
    .expired :: (r.2.2.map .capacityDropped ++ [.queued relay originResend]))

def chargeArrival :
    MeshRelayGovernor F × Bool :=
  match arrival with
  | some peer => takePeerToken host g peer now
  | none => (g, true)

def admitUnsuppressed (originResend : Bool) (now : ℕ) :
    MeshRelayGovernor F × RelayAdmission × List MeshEvent :=
  let charged := chargeArrival host g arrival now
  let g := charged.1
  if !charged.2 then (g, .rejected .peerRateLimited, [])
  else
    match g.prepareHop message degree with
    | none => (g, .rejected .hopLimitReached, [])
    | some forwarded =>
      match g.makeRoom forwarded now with
      | none => (g, .rejected .queueFull, [])
      | some room =>
        let relay : PendingRelay :=
          { message := forwarded
            arrivalPeer := arrival
            heardFrom := []
            dueAt := now + room.1.jitterFor host message.id degree
            custodyRequest := get message.metadata custodyMetaKey
            custodyTarget := none }
        let done := room.1.accept relay originResend now
        (done.1, .queued, room.2 ++ done.2)

def admitMessage (degree now : ℕ) :
    MeshRelayGovernor F × RelayAdmission × List MeshEvent :=
  let suppressed := g.seen.contains now message.id
  let originResend := suppressed && g.isOriginResend message arrival
  if suppressed && !originResend then
    match narrowFirst message.id arrival g.pending with
    | some r => ({ g with pending := r.1 }, .rejected .narrowedByDuplicate, r.2)
    | none => (g, .rejected .alreadySeen, [])
  else g.admitUnsuppressed host message arrival degree originResend now

def admitHeld (target : PeerId)
    (now : ℕ) : MeshRelayGovernor F × Except RelayRejection PendingRelay × List MeshEvent :=
  let charged := takePeerToken host g target now
  let g := charged.1
  if !charged.2 then (g, .error .peerRateLimited, [])
  else
    match g.makeRoom message now with
    | none => (g, .error .queueFull, [])
    | some room =>
      let relay : PendingRelay :=
        { message := message
          arrivalPeer := none
          heardFrom := []
          dueAt := now
          custodyRequest := none
          custodyTarget := some target }
      ({ room.1 with pending := room.1.pending ++ [relay] }, .ok relay, room.2)

def hasSendBudget : MeshRelayGovernor F × Bool :=
  let s := g.sendBudget.hasAbove g.ownReserve now
  let g := { g with sendBudget := s.1 }
  if s.2 then
    let f := g.forwardBudget.hasAbove 0 now
    ({ g with forwardBudget := f.1 }, f.2)
  else (g, false)

structure Released (F : Type*) where
  governor : MeshRelayGovernor F
  keep : List PendingRelay
  due : List PendingRelay
  abandoned : List PendingRelay

def releaseLoop (now : ℕ) : MeshRelayGovernor F → List PendingRelay → Released F
  | g, [] => ⟨g, [], [], []⟩
  | g, relay :: rest =>
    if now < relay.dueAt then
      let r := releaseLoop now g rest
      { r with keep := relay :: r.keep }
    else if relayQueueMaxOverdue < now - relay.dueAt then
      let g :=
        if relay.custodyTarget.isNone then { g with seen := g.seen.forget relay.message.id } else g
      let r := releaseLoop now g rest
      { r with abandoned := relay :: r.abandoned }
    else
      let budget := g.hasSendBudget now
      let r := releaseLoop now budget.1 rest
      if budget.2 then { r with due := relay :: r.due } else { r with keep := relay :: r.keep }

def releaseDue :
    MeshRelayGovernor F × List PendingRelay × List PendingRelay × List MeshEvent :=
  let r := releaseLoop now { g with seen := g.seen.expire now, pending := [] } g.pending
  ({ r.governor with pending := r.keep }, r.due, r.abandoned,
    .expired :: (r.abandoned.filter (·.custodyTarget.isNone)).map .abandoned)

def takeSendToken : MeshRelayGovernor F × Bool :=
  let budget := g.hasSendBudget now
  if budget.2 then
    ({ budget.1 with
        sendBudget := budget.1.sendBudget.spend
        forwardBudget := budget.1.forwardBudget.spend }, true)
  else (budget.1, false)

def takeOwnSendToken : MeshRelayGovernor F × Bool :=
  let r := g.sendBudget.tryTakeAbove 0 now
  ({ g with sendBudget := r.1 }, r.2)

def recordForwarded : MeshRelayGovernor F :=
  { g with windowForwards := g.windowForwards + 1 }

def requeue (relay : PendingRelay) :
    MeshRelayGovernor F × Option PendingRelay × List MeshEvent :=
  if g.config.queueCapacity ≤ g.pending.length then
    if relay.custodyTarget.isSome then (g, some relay, [])
    else ({ g with seen := g.seen.forget relay.message.id }, none, [.refused relay])
  else ({ g with pending := g.pending ++ [relay] }, none, [])

def dropHeld : MeshRelayGovernor F :=
  { g with pending := g.pending.filter (·.custodyTarget.isNone) }

def markHandled :
    MeshRelayGovernor F × List MeshEvent :=
  let r := g.seen.observe now id
  ({ g with seen := r.1 }, .expired :: (r.2.2.map .capacityDropped ++ [.handled id]))

def absorbSettledDuplicate : Bool :=
  g.seen.contains now message.id && !g.isOriginResend message arrival &&
    !g.pending.any fun p => decide (p.message.id = message.id)

def forgetPeer (peer : PeerId) : MeshRelayGovernor F :=
  { g with peerBudgets := g.peerBudgets.erase peer }

def maintain : MeshRelayGovernor F × List MeshEvent :=
  ({ g with seen := g.seen.expire now }, [.expired])

def biasedFanout : ℕ :=
  max (truncate (round (ofCount g.config.fanout * g.biasScale))) 1

def splitLeaders : List TransportType → List MeshNeighbor → List MeshNeighbor × List MeshNeighbor
  | _, [] => ([], [])
  | carriers, n :: rest =>
    if n.transport ∈ carriers then
      let r := splitLeaders carriers rest
      (r.1, n :: r.2)
    else
      let r := splitLeaders (carriers ++ [n.transport]) rest
      (n :: r.1, r.2)

def linkBefore
    (a b : MeshNeighbor) : Prop :=
  b.linkQuality < a.linkQuality ∨ (a.linkQuality = b.linkQuality ∧
    host.hashOf [id, a.peerId, g.localId] ≤ host.hashOf [id, b.peerId, g.localId])

instance (host : HashHost) (g : MeshRelayGovernor F) (id : MessageId) :
    DecidableRel (linkBefore host g id) :=
  fun _ _ => inferInstanceAs (Decidable (_ ∨ _))

def selectWithinFanout (neighbors : List MeshNeighbor)
    (exclude : List PeerId) (id : MessageId) (fanout : ℕ) : List PeerId :=
  let candidates := neighbors.filter fun n => decide (n.peerId ∉ exclude)
  if candidates.length ≤ fanout then candidates.map (·.peerId)
  else
    let split := splitLeaders [] (candidates.insertionSort (linkBefore host g id))
    ((split.1 ++ split.2).take fanout).map (·.peerId)

def selectTargets (neighbors : List MeshNeighbor)
    (exclude : List PeerId) (id : MessageId) : List PeerId :=
  g.selectWithinFanout host neighbors exclude id g.biasedFanout

end MeshRelayGovernor

end OfflineProtocol
