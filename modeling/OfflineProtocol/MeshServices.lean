import OfflineProtocol.KeyedTable
import OfflineProtocol.SubscriptionTypes
import Mathlib.Data.List.Basic

/-! The mesh service registry: discovery queries gossiped over several hops, their
responses, and service requests. -/
namespace OfflineProtocol
open KeyedTable

abbrev NodeName := String

abbrev QueryName := String

abbrev ServiceName := String

def discoveryQueryDedupTtlSecs : ℕ := 60
def discoveryQueryDefaultMaxHops : ℕ := 10
def discoveryGossipMaxFanout : ℕ := 5
def discoveryInitialBroadcastMax : ℕ := 20
def discoveryQueryMaxDedupEntries : ℕ := 10000
def maxServiceMethodLen : ℕ := 256
def validServiceStatuses : List String := ["ok", "not_found", "error"]

structure ServiceDescriptor where
  serviceId : ServiceName
  version : String
  capabilities : List (String × String)

structure DiscoveryQuery where
  queryId : QueryName
  originator : NodeName
  serviceId : Option ServiceName
  remainingHops : ℕ
  deriving DecidableEq

structure DiscoveryResponse where
  queryId : QueryName
  serviceId : ServiceName
  version : String
  providerPeerId : NodeName
  capabilities : List (String × String)
  hopCount : ℕ
  originator : NodeName
  deriving DecidableEq

structure ServiceRequest where
  requestId : String
  serviceId : ServiceName
  method : String
  body : String
  deriving DecidableEq

structure ServiceResponse where
  requestId : String
  serviceId : ServiceName
  status : String
  body : String
  deriving DecidableEq

inductive ServiceContent
  | discoverQuery (payload : Option DiscoveryQuery)
  | discoverResponse (payload : Option DiscoveryResponse)
  | request (payload : Option ServiceRequest)
  | response (payload : Option ServiceResponse)
  | other
  deriving DecidableEq

structure ServiceMessage where
  recipient : NodeName
  content : ServiceContent

inductive DiscoveryEvent
  | serviceDiscovered (queryId : QueryName) (serviceId : ServiceName) (version : String)
      (providerPeerId : NodeName) (capabilities : List (String × String)) (hopCount : ℕ)
  | serviceRequestReceived (requestId : String) (serviceId : ServiceName) (method body : String)
      (sender : NodeName)
  | serviceResponseReceived (requestId : String) (serviceId : ServiceName) (status body : String)
      (providerPeerId : NodeName)
  deriving DecidableEq

structure Consumed where
  messages : List ServiceMessage
  events : List DiscoveryEvent

def Consumed.nothing : Consumed := ⟨[], []⟩

structure MeshServices where
  localServices : Table ServiceName ServiceDescriptor
  seenDiscoveryQueries : Table QueryName ℕ
  seenDiscoveryOrder : List QueryName

def fanoutSeed (queryId : QueryName) (userId : NodeName) : UInt64 :=
  (queryId.toUTF8.toList ++ userId.toUTF8.toList).foldl
    (fun acc b => acc * 31 + UInt64.ofNat b.toNat) 0

def swapAt (indices : List ℕ) (i j : ℕ) : List ℕ :=
  (indices.set i (indices.getD j 0)).set j (indices.getD i 0)

def selectFanoutPeers (peers : List NodeName) (max : ℕ) (queryId : QueryName)
    (userId : NodeName) : List NodeName :=
  if peers.length ≤ max then peers
  else
    let seed := fanoutSeed queryId userId ^^^ UInt64.ofNat peers.length
    let indices := (List.range max).foldl
      (fun indices i =>
        swapAt indices i (i + (seed * (UInt64.ofNat i + 7)).toNat % (peers.length - i)))
      (List.range peers.length)
    (indices.take max).filterMap fun i => peers[i]?

namespace MeshServices
variable (s : MeshServices) (query : DiscoveryQuery) (sender : NodeName) (hopCount : ℕ)
  (userId : NodeName) (knownPeers : List NodeName) (now : ℕ)

def new : MeshServices := ⟨∅, ∅, []⟩

def registerService (descriptor : ServiceDescriptor) : MeshServices :=
  { s with localServices := s.localServices.insert descriptor.serviceId descriptor }

def unregisterService (serviceId : ServiceName) : MeshServices :=
  { s with localServices := s.localServices.erase serviceId }

def recordSeenQuery (queryId : QueryName) (now : ℕ) : MeshServices :=
  let evicted :=
    if discoveryQueryMaxDedupEntries ≤ s.seenDiscoveryQueries.entries.length then
      match s.seenDiscoveryOrder with
      | oldest :: order =>
        { s with
          seenDiscoveryQueries := s.seenDiscoveryQueries.erase oldest
          seenDiscoveryOrder := order }
      | [] => s
    else s
  { evicted with
    seenDiscoveryQueries := evicted.seenDiscoveryQueries.insert queryId now
    seenDiscoveryOrder := evicted.seenDiscoveryOrder ++ [queryId] }

def cleanupExpired : MeshServices :=
  let seen := retain s.seenDiscoveryQueries fun _ ts => now - ts < discoveryQueryDedupTtlSecs
  { s with
    seenDiscoveryQueries := seen
    seenDiscoveryOrder := s.seenDiscoveryOrder.filter fun id => id ∈ seen }

def discoverServices
    (serviceId : Option ServiceName) (queryId : QueryName) (now : ℕ) :
    List ServiceMessage × MeshServices :=
  let content := ServiceContent.discoverQuery
    (some ⟨queryId, userId, serviceId, discoveryQueryDefaultMaxHops⟩)
  ((selectFanoutPeers knownPeers discoveryInitialBroadcastMax queryId userId).map fun peer =>
    ⟨peer, content⟩, s.recordSeenQuery queryId now)

inductive ServiceError
  | payloadTooLarge
  | invalidStatus

def sendServiceRequest (provider : NodeName) (request : ServiceRequest) :
    Except ServiceError ServiceMessage :=
  if maxServiceBodySize < request.body.utf8ByteSize then .error .payloadTooLarge
  else if maxServiceMethodLen < request.method.utf8ByteSize then .error .payloadTooLarge
  else .ok ⟨provider, .request (some request)⟩

def respondToServiceRequest (requester : NodeName) (response : ServiceResponse) :
    Except ServiceError ServiceMessage :=
  if response.status ∉ validServiceStatuses then .error .invalidStatus
  else if maxServiceBodySize < response.body.utf8ByteSize then .error .payloadTooLarge
  else .ok ⟨requester, .response (some response)⟩

def matching : List ServiceDescriptor :=
  (values s.localServices).filter fun svc => query.serviceId.all (· = svc.serviceId)

def answers : List ServiceMessage :=
  (s.matching query).map fun svc =>
    ⟨sender, .discoverResponse (some ⟨query.queryId, svc.serviceId, svc.version, userId,
      svc.capabilities, hopCount, query.originator⟩)⟩

def forwards (sender userId : NodeName) (knownPeers : List NodeName) :
    List ServiceMessage :=
  if 0 < query.remainingHops then
    let eligible := knownPeers.filter fun p => p ≠ sender ∧ p ≠ query.originator
    (selectFanoutPeers eligible discoveryGossipMaxFanout query.queryId userId).map fun peer =>
      ⟨peer, .discoverQuery (some { query with remainingHops := query.remainingHops - 1 })⟩
  else []

def handleDiscoverQuery :
    Consumed × MeshServices :=
  if query.queryId ∈ s.seenDiscoveryQueries then (.nothing, s)
  else
    (⟨s.answers query sender hopCount userId ++ forwards query sender userId knownPeers, []⟩,
      s.recordSeenQuery query.queryId now)

def handleDiscoverResponse (response : DiscoveryResponse) (userId : NodeName) : Consumed :=
  if response.originator ≠ "" ∧ response.originator ≠ userId then
    ⟨[⟨response.originator, .discoverResponse (some response)⟩], []⟩
  else
    ⟨[], [.serviceDiscovered response.queryId response.serviceId response.version
      response.providerPeerId response.capabilities response.hopCount]⟩

def handleRequest (request : ServiceRequest) (sender : NodeName) : Consumed :=
  if maxServiceBodySize < request.body.utf8ByteSize then .nothing
  else if maxServiceMethodLen < request.method.utf8ByteSize then .nothing
  else if request.serviceId ∈ s.localServices then
    ⟨[], [.serviceRequestReceived request.requestId request.serviceId request.method request.body
      sender]⟩
  else ⟨[⟨sender, .response (some ⟨request.requestId, request.serviceId, "not_found", ""⟩)⟩], []⟩

def handleResponse (response : ServiceResponse) (sender : NodeName) : Consumed :=
  if maxServiceBodySize < response.body.utf8ByteSize then .nothing
  else if response.status ∉ validServiceStatuses then .nothing
  else
    ⟨[], [.serviceResponseReceived response.requestId response.serviceId response.status
      response.body sender]⟩

def handleIncomingMessage (bytes : ServiceContent → ℕ)
    (content : ServiceContent) (sender : NodeName) (hopCount : ℕ) (userId : NodeName)
    (knownPeers : List NodeName) (now : ℕ) : Consumed × MeshServices :=
  if maxServicePayloadSize < bytes content then (.nothing, s)
  else
    match content with
    | .discoverQuery (some query) =>
      s.handleDiscoverQuery query sender hopCount userId knownPeers now
    | .discoverResponse (some response) => (handleDiscoverResponse response userId, s)
    | .request (some request) => (s.handleRequest request sender, s)
    | .response (some response) => (handleResponse response sender, s)
    | _ => (.nothing, s)

end MeshServices

end OfflineProtocol
