import OfflineProtocol.CustodyStore

/-! The engine's forwarding and custody seams: the flush of the forwarding
queue, redelivery on neighbor discovery, the drop point, the sweep and the
erase. What the host answers during an operation is part of the operation. -/
namespace OfflineProtocol
open KeyedTable

structure MeshEngine (F : Type*) where
  clock : ℕ
  mesh : MeshRelayGovernor F
  custody : CustodyStore

/-- What a flush finds outside the engine: the mesh links and whether each
hand-over on them succeeds, in turn; the peers with an established session, the
battery gate and the wall clock for deposits; and the id minted for the receipt
of a deposit, if one is sent. -/
structure FlushHost where
  neighbors : List MeshNeighbor
  sends : List Bool
  confirmedSession : PeerId → Bool
  batteryOk : Bool
  nowMs : ℤ
  receiptId : MessageId → Option MessageId

namespace MeshEngine
variable {F : Type*} [AirArith F]
variable (host : HashHost) (e : MeshEngine F) (relay : PendingRelay)

def returnHeldToStore : MeshEngine F × List MeshEvent :=
  ({ e with custody := e.custody.returned relay.message.id }, [.returned relay])

def judge (c : CustodyCandidate) :
    MeshEngine F × Except CustodyRefusal Accepted × List MeshEvent :=
  let r := e.custody.judge c
  let gone := e.custody.entries.keys.filter fun id => decide (id ∉ r.1.entries)
  let taken :=
    match r.2 with
    | .ok a => (get r.1.entries a.id).toList
    | .error _ => []
  ({ e with custody := r.1 }, r.2, gone.map .dropped ++ taken.map .deposited)

def sendCustodyReceipt (receipt : Option MessageId) :
    MeshEngine F × List MeshEvent :=
  match receipt with
  | some id =>
    let r := e.mesh.markHandled id e.clock
    ({ e with mesh := r.1 }, r.2)
  | none => (e, [])

def judgeAtDropPoint (env : FlushHost) (e : MeshEngine F) (relay : PendingRelay) :
    MeshEngine F × List MeshEvent :=
  if relay.custodyTarget.isSome then e.returnHeldToStore relay
  else
    let sessionTier :=
      match relay.arrivalPeer with
      | some peer => env.confirmedSession peer
      | none => false
    let batteryOk := !e.custody.config.enabled || relay.custodyRequest.isNone || env.batteryOk
    let r := e.judge
      { message := relay.message
        request := relay.custodyRequest
        arrivalPeer := relay.arrivalPeer
        sessionTier := sessionTier
        batteryOk := batteryOk
        nowMs := env.nowMs }
    match r.2.1 with
    | .ok a =>
      let receipt := r.1.sendCustodyReceipt (env.receiptId a.id)
      (receipt.1, r.2.2 ++ receipt.2)
    | .error _ => (r.1, r.2.2)

def dropPointLoop (env : FlushHost) :
    MeshEngine F → List PendingRelay → MeshEngine F × List MeshEvent
  | e, [] => (e, [])
  | e, relay :: rest =>
    let r := e.judgeAtDropPoint env relay
    let rs := dropPointLoop env r.1 rest
    (rs.1, r.2 ++ rs.2)

/-- The neighbors a released forward goes to. A held frame goes to the one
neighbor it was queued toward, while linked. Any other goes to the recipient
first, when linked, and to the chosen onward neighbors: never to its sender, to
the link it came in on, or to a neighbor that handed us a copy. -/
def targetsFor (g : MeshRelayGovernor F) (neighbors : List MeshNeighbor)
    (relay : PendingRelay) : List PeerId :=
  match relay.custodyTarget with
  | some target => if neighbors.any (fun n => decide (n.peerId = target)) then [target] else []
  | none =>
    let exclude := relay.message.sender :: (relay.arrivalPeer.toList ++ relay.heardFrom)
    let onward := g.selectTargets host neighbors exclude relay.message.id
    if neighbors.any (fun n => decide (n.peerId = relay.message.recipient)) then
      relay.message.recipient :: onward.filter (· ≠ relay.message.recipient)
    else onward

structure SendOutcome (F : Type*) where
  mesh : MeshRelayGovernor F
  sends : List Bool
  deliveredTo : List PeerId
  reachedRecipient : Bool

def sendLoop (now : ℕ) (direct : Bool) (recipient : PeerId) :
    MeshRelayGovernor F → List Bool → List PeerId → SendOutcome F
  | g, sends, [] => ⟨g, sends, [], false⟩
  | g, sends, target :: rest =>
    let token := g.takeSendToken now
    if !token.2 then ⟨token.1, sends, [], false⟩
    else if sends.headD false then
      if direct && decide (target = recipient) then ⟨token.1, sends.tail, [target], true⟩
      else
        let r := sendLoop now direct recipient token.1 sends.tail rest
        { r with deliveredTo := target :: r.deliveredTo }
    else sendLoop now direct recipient token.1 sends.tail rest

def recordCustodyTransmission (peer : PeerId)
    (reachedRecipient : Bool) : MeshEngine F × List MeshEvent :=
  if reachedRecipient then
    ({ e with custody := (e.custody.recordDelivered relay.message.id).1 }, [.delivered relay peer])
  else
    ({ e with custody := e.custody.recordReOriginated relay.message.id },
      [.reOriginated relay peer])

def handBack : MeshEngine F × List MeshEvent :=
  let r := e.mesh.requeue relay
  let e := { e with mesh := r.1 }
  match r.2.1 with
  | some back =>
    let b := e.returnHeldToStore back
    (b.1, r.2.2 ++ b.2)
  | none => (e, r.2.2)

def flushRelay (neighbors : List MeshNeighbor) (e : MeshEngine F)
    (sends : List Bool) (relay : PendingRelay) : MeshEngine F × List Bool × List MeshEvent :=
  let targets := targetsFor host e.mesh neighbors relay
  let direct := decide (targets.head? = some relay.message.recipient)
  let linked := neighbors.map (·.peerId)
  if targets = [] ∧ relay.custodyTarget.isNone ∧ ∃ p ∈ linked, p ∈ relay.heardFrom then
    (e, sends, [.covered relay linked])
  else
    let out := sendLoop e.clock direct relay.message.recipient e.mesh sends targets
    let e := { e with mesh := out.mesh }
    match out.deliveredTo with
    | [] =>
      let b := e.handBack relay
      (b.1, out.sends, b.2)
    | peer :: peers =>
      let r :=
        if relay.custodyTarget.isSome then
          e.recordCustodyTransmission relay peer out.reachedRecipient
        else (e, [.carried relay (peer :: peers)])
      ({ r.1 with mesh := r.1.mesh.recordForwarded }, out.sends, r.2)

def flushLoop (host : HashHost) (neighbors : List MeshNeighbor) :
    MeshEngine F → List Bool → List PendingRelay → MeshEngine F × List MeshEvent
  | e, _, [] => (e, [])
  | e, sends, relay :: rest =>
    let r := e.flushRelay host neighbors sends relay
    let rs := flushLoop host neighbors r.1 r.2.1 rest
    (rs.1, r.2.2 ++ rs.2)

def flushMeshRelaysAt (env : FlushHost) (e : MeshEngine F) :
    MeshEngine F × List MeshEvent :=
  let r := e.mesh.releaseDue e.clock
  let dropped := dropPointLoop env { e with mesh := r.1 } r.2.2.1
  let sent := flushLoop host env.neighbors dropped.1 env.sends r.2.1
  (sent.1, r.2.2.2 ++ (dropped.2 ++ sent.2))

def redeliverLoop (host : HashHost) (peer : PeerId) :
    MeshEngine F → List MessageId → MeshEngine F × List MeshEvent
  | e, [] => (e, [])
  | e, id :: rest =>
    match get e.custody.entries id with
    | none => redeliverLoop host peer e rest
    | some held =>
      let r := e.mesh.admitHeld host held.message peer e.clock
      match r.2.1 with
      | .ok relay =>
        let rs := redeliverLoop host peer
          { e with mesh := r.1, custody := e.custody.markQueued id peer } rest
        (rs.1, r.2.2 ++ .queuedHeld relay peer :: rs.2)
      | .error .queueFull => ({ e with mesh := r.1 }, r.2.2)
      | .error _ =>
        let rs := redeliverLoop host peer { e with mesh := r.1 } rest
        (rs.1, r.2.2 ++ rs.2)

def redeliverCustodyTo (peer : PeerId) (linked : List PeerId)
    (relayAllowed batteryOk : Bool) : MeshEngine F × List MeshEvent :=
  if !e.custody.config.enabled || e.custody.entries.entries.isEmpty then (e, [])
  else if !relayAllowed then (e, [])
  else if peer ∉ linked then (e, [])
  else if !batteryOk then (e, [])
  else redeliverLoop host peer e (e.custody.candidatesFor peer)

def sweepCustodyNow (nowMs : ℤ) : MeshEngine F × List MeshEvent :=
  if e.custody.entries.entries.isEmpty then (e, [])
  else
    let r := e.custody.expire nowMs e.custody.config.holdMs
    ({ e with custody := r.1 }, r.2.map .dropped)

def eraseCustody : MeshEngine F × List MeshEvent :=
  ({ e with custody := e.custody.erase.1, mesh := e.mesh.dropHeld }, [.erased])

def admitMessage (message : Message) (arrival : Option PeerId)
    (degree : ℕ) : MeshEngine F × List MeshEvent :=
  let r := e.mesh.admitMessage host message arrival degree e.clock
  ({ e with mesh := r.1 }, .arrived message arrival :: r.2.2)

def tryRelayMessage (message : Message)
    (arrival : Option PeerId) (degree : ℕ) (relayAllowed batteryOk : Bool) :
    MeshEngine F × List MeshEvent :=
  if e.mesh.absorbSettledDuplicate message arrival e.clock then (e, [.arrived message arrival])
  else if !relayAllowed then (e, [.arrived message arrival])
  else if !batteryOk then (e, [.arrived message arrival])
  else e.admitMessage host message arrival degree

inductive Op
  | admitMessage (message : Message) (arrival : Option PeerId) (degree : ℕ)
  | tryRelay (message : Message) (arrival : Option PeerId) (degree : ℕ)
      (relayAllowed batteryOk : Bool)
  | redeliver (peer : PeerId) (linked : List PeerId) (relayAllowed batteryOk : Bool)
  | flush (env : FlushHost)
  | judge (candidate : CustodyCandidate)
  | sweep (nowMs : ℤ)
  | erase
  | markHandled (id : MessageId)
  | maintain
  | setConditions (conditions : RelayConditions)
  | setLocalId (localId : String)
  | observeActivity
  | forceInactive
  | takeOwnSendToken
  | forgetPeer (peer : PeerId)

structure Step where
  elapsed : ℕ
  host : HashHost
  op : Op

def perform : Op → MeshEngine F × List MeshEvent
  | .admitMessage message arrival degree => e.admitMessage host message arrival degree
  | .tryRelay message arrival degree relayAllowed batteryOk =>
    e.tryRelayMessage host message arrival degree relayAllowed batteryOk
  | .redeliver peer linked relayAllowed batteryOk =>
    e.redeliverCustodyTo host peer linked relayAllowed batteryOk
  | .flush env => e.flushMeshRelaysAt host env
  | .judge candidate =>
    let r := e.judge candidate
    (r.1, r.2.2)
  | .sweep nowMs => e.sweepCustodyNow nowMs
  | .erase => e.eraseCustody
  | .markHandled id =>
    let r := e.mesh.markHandled id e.clock
    ({ e with mesh := r.1 }, r.2)
  | .maintain =>
    let r := e.mesh.maintain e.clock
    ({ e with mesh := r.1 }, r.2)
  | .setConditions conditions => ({ e with mesh := e.mesh.setConditions conditions e.clock }, [])
  | .setLocalId localId => ({ e with mesh := e.mesh.setLocalId localId }, [])
  | .observeActivity => ({ e with mesh := (e.mesh.observeActivity e.clock).1 }, [])
  | .forceInactive => ({ e with mesh := e.mesh.forceInactive.1 }, [])
  | .takeOwnSendToken => ({ e with mesh := (e.mesh.takeOwnSendToken e.clock).1 }, [])
  | .forgetPeer peer => ({ e with mesh := e.mesh.forgetPeer peer }, [])

def step (s : Step) : MeshEngine F × List MeshEvent :=
  let e := { e with clock := e.clock + s.elapsed }
  let r := e.perform s.host s.op
  (r.1, .tick e.clock :: r.2)

def Step.now (op : Op) : Step := ⟨0, ⟨fun _ => 0, id⟩, op⟩

def Step.flushTo (elapsed : ℕ) (peers : List PeerId) : Step where
  elapsed := elapsed
  host := ⟨fun _ => 0, id⟩
  op := .flush
    { neighbors := peers.map fun p => ⟨p, 1, .ble⟩
      sends := peers.map fun _ => true
      confirmedSession := fun _ => true
      batteryOk := true
      nowMs := 0
      receiptId := fun _ => none }

def start (localId : String) (config : MeshRelayConfig F) (custody : CustodyConfig) :
    MeshEngine F where
  clock := 0
  mesh := .withConfig localId config 0
  custody := .new custody

end MeshEngine

end OfflineProtocol
