import IpfsEmbed.Net.Multiaddr
import IpfsEmbed.Net.Rtt
import Mathlib.Data.List.AList

/-!
# The address book

`AddressBook` of `src/net/peers.rs` with every method and `NetworkBehaviour` callback it
implements. The book's maps are `FnvHashMap`s, whose iteration order the source never relies
on; they are modelled as association lists with distinct keys, and every write is an
`AList.insert`. Three parts of the process live outside the book and are gathered with it in a
`World`:

* the process-wide gauges and counters of the `lazy_static!` block;
* the `mpsc::unbounded` channels behind `swarm_events`, one per subscriber, each with the
  queue its receiver has not read yet and whether that receiver is still alive;
* two history variables, not in the source, for the specifications: the `journal` of every
  event passed to `notify`, and per channel the events its receiver has taken and the
  journal length when it was created.

A sender in `event_stream` is the index of its channel in `World.channels`.
-/

namespace IpfsEmbed.Net

/-- `ListenerId`. -/
structure ListenerId where
  id : Nat
  deriving DecidableEq, Repr

/-- `ConnectionId`. -/
structure ConnectionId where
  id : Nat
  deriving DecidableEq, Repr

/-- `ConnectedPoint`: the endpoint of a connection we dialled, or the local and remote
addresses of one we accepted. -/
inductive ConnectedPoint where
  | dialer (address : Multiaddr)
  | listener (localAddr sendBackAddr : Multiaddr)
  deriving DecidableEq, Repr

/-- `ConnectedPoint::get_remote_address`. -/
def ConnectedPoint.getRemoteAddress : ConnectedPoint → Multiaddr
  | .dialer address => address
  | .listener _ sendBackAddr => sendBackAddr

/-- `libp2p_blake_streams::Head`, which the book only carries inside `Event::NewHead`. -/
structure Head where
  id : Nat
  deriving DecidableEq, Repr

/-- `Event`. Error values arrive already rendered with `{:#}`. -/
inductive Event where
  | newListener (id : ListenerId)
  | newListenAddr (id : ListenerId) (addr : Multiaddr)
  | expiredListenAddr (id : ListenerId) (addr : Multiaddr)
  | listenerError (id : ListenerId) (error : String)
  | listenerClosed (id : ListenerId)
  | newExternalAddr (addr : Multiaddr)
  | expiredExternalAddr (addr : Multiaddr)
  | discovered (peer : PeerId)
  | dialFailure (peer : PeerId) (addr : Multiaddr) (error : String)
  | unreachable (peer : PeerId)
  | connectionEstablished (peer : PeerId) (endpoint : ConnectedPoint)
  | connectionClosed (peer : PeerId) (endpoint : ConnectedPoint)
  | addressChanged (peer : PeerId) (old new : ConnectedPoint)
  | connected (peer : PeerId)
  | disconnected (peer : PeerId)
  | subscribed (peer : PeerId) (topic : String)
  | unsubscribed (peer : PeerId) (topic : String)
  | newHead (head : Head)
  | bootstrapped
  | newInfo (peer : PeerId)
  deriving DecidableEq, Repr

/-- `AddressSource`: how an address was learnt. -/
inductive AddressSource where
  | mdns
  | kad
  | peer
  | user
  deriving DecidableEq, Repr

/-- `PeerInfo`, with the `Default` of the source as field defaults. -/
structure PeerInfo where
  protocolVersion : Option String := none
  agentVersion : Option String := none
  protocols : List String := []
  addresses : AList (fun _ : Multiaddr => AddressSource) := ∅
  rtt : Option Rtt := none

/-- The fields of `IdentifyInfo` that `set_info` reads. -/
structure IdentifyInfo where
  protocolVersion : String
  agentVersion : String
  protocols : List String

/-- `DialPeerCondition`. -/
inductive DialPeerCondition where
  | disconnected
  | notDialing
  | always
  deriving DecidableEq, Repr

/-- The `NetworkBehaviourAction`s the book queues: it only ever dials a peer. -/
inductive NetworkBehaviourAction where
  | dialPeer (peerId : PeerId) (condition : DialPeerCondition)
  deriving DecidableEq, Repr

/-- The peer a queued action dials. -/
def NetworkBehaviourAction.peerId : NetworkBehaviourAction → PeerId
  | .dialPeer peerId _ => peerId

/-- `AddressBook`, without the node name and public key that only their getters read. -/
structure AddressBook where
  enableLoopback : Bool
  pruneAddresses : Bool
  localPeerId : PeerId
  peers : AList (fun _ : PeerId => PeerInfo)
  connections : AList (fun _ : PeerId => Multiaddr)
  eventStream : List Nat
  actions : List NetworkBehaviourAction

/-- The `lazy_static!` gauges and counters, each the 64-bit atomic of its prometheus metric:
an `IntGauge` holds an `AtomicI64` (read by `BitVec.toInt`) and an `IntCounter` an `AtomicU64`
(read by `BitVec.toNat`). Their `inc` and `dec` are `fetch_add` and `fetch_sub`, which wrap
around in every build, as `+` and `-` on `BitVec 64` do. -/
structure Metrics where
  listeners : BitVec 64 := 0
  listenAddrs : BitVec 64 := 0
  externalAddrs : BitVec 64 := 0
  discovered : BitVec 64 := 0
  connected : BitVec 64 := 0
  connections : BitVec 64 := 0
  listenerError : BitVec 64 := 0
  addressReachFailure : BitVec 64 := 0
  dialFailure : BitVec 64 := 0

/-- An `mpsc::unbounded` channel made by `swarm_events`. `queue` and `receiverAlive` are the
channel; `received` (what the `SwarmEvents` stream has yielded) and `since` (the journal
length when the channel was made) are history variables. -/
structure Channel where
  queue : List Event
  receiverAlive : Bool
  received : List Event
  since : Nat

/-- The address book with the parts of the process it shares state with. -/
structure World where
  book : AddressBook
  metrics : Metrics
  channels : List Channel
  journal : List Event

namespace AddressBook

/-- `AddressBook::new`. -/
def new (localPeerId : PeerId) (enableLoopback pruneAddresses : Bool) : AddressBook :=
  { enableLoopback, pruneAddresses, localPeerId, peers := ∅, connections := ∅,
    eventStream := [], actions := [] }

/-- `AddressBook::dial`: refuse the local peer, otherwise queue a dial on the condition that
the peer is disconnected. -/
def dial (self : AddressBook) (peer : PeerId) : AddressBook :=
  if peer = self.localPeerId then self
  else { self with actions := self.actions ++ [.dialPeer peer .disconnected] }

/-- `AddressBook::remove_address`: normalize, then drop the entry from a known peer. -/
def removeAddress (self : AddressBook) (peer : PeerId) (address : Multiaddr) : AddressBook :=
  let address := (normalizeAddrRef address peer).deref
  match self.peers.lookup peer with
  | some info =>
      let info := { info with addresses := info.addresses.erase address }
      { self with peers := self.peers.insert peer info }
  | none => self

/-- `AddressBook::is_connected`: a connection is tracked, or the peer is ourselves. -/
def isConnected (self : AddressBook) (peer : PeerId) : Bool :=
  decide (peer ∈ self.connections) || peer == self.localPeerId

/-- `AddressBook::info`. -/
def info (self : AddressBook) (peerId : PeerId) : Option PeerInfo :=
  self.peers.lookup peerId

/-- `AddressBook::set_info`: overwrite the identify fields of a known peer. -/
def setInfo (self : AddressBook) (peerId : PeerId) (identify : IdentifyInfo) : AddressBook :=
  match self.peers.lookup peerId with
  | some info =>
      let info := { info with protocolVersion := some identify.protocolVersion,
                              agentVersion := some identify.agentVersion,
                              protocols := identify.protocols }
      { self with peers := self.peers.insert peerId info }
  | none => self

/-- `addresses_of_peer`: the addresses of a known peer, none for an unknown one. -/
def addressesOfPeer (self : AddressBook) (peerId : PeerId) : List Multiaddr :=
  match self.peers.lookup peerId with
  | some info => info.addresses.keys
  | none => []

/-- `poll`: hand the oldest queued action to the swarm. -/
def poll (self : AddressBook) : Option NetworkBehaviourAction × AddressBook :=
  match self.actions with
  | action :: rest => (some action, { self with actions := rest })
  | [] => (none, self)

/-- The test at the head of `inject_dial_failure`: pruning is on and the peer's record still
has an address, so the peer is dialled again. -/
def redials (self : AddressBook) (peerId : PeerId) : Bool :=
  self.pruneAddresses &&
    match self.peers.lookup peerId with
    | some peer => !peer.addresses.keys.isEmpty
    | none => false

end AddressBook

/-- `UnboundedSender::unbounded_send`: queue the event unless the receiver was dropped. -/
def unboundedSend (channels : List Channel) (tx : Nat) (event : Event) : Bool × List Channel :=
  match channels[tx]? with
  | some channel =>
      if channel.receiverAlive then
        (true, channels.set tx { channel with queue := channel.queue ++ [event] })
      else (false, channels)
  | none => (false, channels)

/-- The `retain` loop of `notify`: send to each sender in order and keep those whose send
succeeded. -/
def retainSend (event : Event) : List Nat → List Channel → List Nat × List Channel
  | [], channels => ([], channels)
  | tx :: rest, channels =>
      let sent := unboundedSend channels tx event
      let kept := retainSend event rest sent.2
      (if sent.1 then tx :: kept.1 else kept.1, kept.2)

/-- The body of `set_rtt` on a record's `rtt`: register a sample, start the estimator at a
first sample, or register a failure when there is an estimator; `none` is a panic. -/
def updateRtt (rtt : Option Rtt) (sample : Option Duration) : Option (Option Rtt) :=
  match sample, rtt with
  | some duration, some old => (old.register duration).map some
  | some duration, none => some (some (Rtt.new duration))
  | none, some old => some (some old.registerFailure)
  | none, none => some none

namespace World

/-- The world of a fresh `AddressBook::new`, with the gauges at zero and no subscriber. -/
def new (localPeerId : PeerId) (enableLoopback pruneAddresses : Bool) : World :=
  { book := AddressBook.new localPeerId enableLoopback pruneAddresses, metrics := {},
    channels := [], journal := [] }

/-- `AddressBook::notify`: deliver the event to every live subscriber and forget the
senders of dropped ones. -/
def notify (w : World) (event : Event) : World :=
  let sent := retainSend event w.book.eventStream w.channels
  { w with book := { w.book with eventStream := sent.1 }, channels := sent.2,
           journal := w.journal ++ [event] }

/-- `AddressBook::swarm_events`: a new channel whose sender joins `event_stream`. -/
def swarmEvents (w : World) : World :=
  { w with book := { w.book with eventStream := w.book.eventStream ++ [w.channels.length] },
           channels := w.channels ++ [⟨[], true, [], w.journal.length⟩] }

/-- Dropping the `SwarmEvents` of a channel closes it. -/
def dropSwarmEvents (w : World) (rx : Nat) : World :=
  match w.channels[rx]? with
  | some channel => { w with channels := w.channels.set rx { channel with receiverAlive := false } }
  | none => w

/-- `SwarmEvents::poll_next` on a live receiver: take the oldest queued event, if any. -/
def pollSwarmEvents (w : World) (rx : Nat) : World :=
  match w.channels[rx]? with
  | some ⟨event :: queue, true, received, since⟩ =>
      { w with channels := w.channels.set rx ⟨queue, true, received ++ [event], since⟩ }
  | _ => w

/-- `AddressBook::add_address`: refuse the local peer and, with loopback disabled, a loopback
address; otherwise create the record if needed, store the normalized address unless it is
already there, and announce a newly discovered peer. -/
def addAddress (w : World) (peer : PeerId) (address : Multiaddr) (source : AddressSource) :
    World :=
  if peer = w.book.localPeerId then w
  else if !w.book.enableLoopback && address.isLoopback then w
  else
    let discovered := decide (peer ∉ w.book.peers)
    let info := (w.book.peers.lookup peer).getD {}
    let address := normalizeAddr address peer
    let info := if address ∉ info.addresses then
        { info with addresses := info.addresses.insert address source } else info
    let w := { w with book := { w.book with peers := w.book.peers.insert peer info } }
    if discovered then w.notify (.discovered peer) else w

/-- `AddressBook::set_rtt`: update the estimator of a known peer and announce the new info;
`none` is a panic of `Rtt::register`. -/
def setRtt (w : World) (peerId : PeerId) (rtt : Option Duration) : Option World :=
  match w.book.peers.lookup peerId with
  | some info =>
      (updateRtt info.rtt rtt).map fun updated =>
        let info := { info with rtt := updated }
        ({ w with book := { w.book with peers := w.book.peers.insert peerId info } }).notify
          (.newInfo peerId)
  | none => some w

/-- The shape of the callbacks that move one gauge or counter and announce one event. -/
def countAndNotify (w : World) (count : Metrics → Metrics) (event : Event) : World :=
  { w with metrics := count w.metrics }.notify event

/-- `inject_connected`. -/
@[simp] def injectConnected (w : World) (peerId : PeerId) : World :=
  w.countAndNotify (fun m => { m with connected := m.connected + 1 }) (.connected peerId)

/-- `inject_disconnected`. -/
@[simp] def injectDisconnected (w : World) (peerId : PeerId) : World :=
  w.countAndNotify (fun m => { m with connected := m.connected - 1 }) (.disconnected peerId)

/-- The shape of `inject_connection_established` and `inject_address_change`: record the
normalized remote address as reported by the peer, then track it as the peer's connection. -/
def trackConnection (w : World) (peerId : PeerId) (remote : Multiaddr) (event : Event) :
    World :=
  let address := normalizeAddr remote peerId
  let w := w.addAddress peerId address .peer
  let w := { w with book := { w.book with
    connections := w.book.connections.insert peerId address } }
  w.notify event

/-- `inject_connection_established`. The connection id is not read. -/
@[simp] def injectConnectionEstablished (w : World) (peerId : PeerId) (_conn : ConnectionId)
    (conn : ConnectedPoint) : World :=
  w.trackConnection peerId conn.getRemoteAddress (.connectionEstablished peerId conn)

/-- `inject_address_change`, with the new endpoint. -/
@[simp] def injectAddressChange (w : World) (peerId : PeerId) (_conn : ConnectionId)
    (old new : ConnectedPoint) : World :=
  w.trackConnection peerId new.getRemoteAddress (.addressChanged peerId old new)

/-- `inject_connection_closed`: forget the peer's tracked connection, whichever connection
closed. -/
def injectConnectionClosed (w : World) (peerId : PeerId) (_conn : ConnectionId)
    (conn : ConnectedPoint) : World :=
  let w := { w with book := { w.book with connections := w.book.connections.erase peerId } }
  w.notify (.connectionClosed peerId conn)

/-- `inject_addr_reach_failure`: report the failure and, unless the peer is connected, count
it and prune the address when pruning is on. A failure without a peer is only traced. -/
def injectAddrReachFailure (w : World) (peerId : Option PeerId) (addr : Multiaddr)
    (error : String) : World :=
  match peerId with
  | some peerId =>
      let w := w.notify (.dialFailure peerId addr error)
      if w.book.isConnected peerId then w
      else
        let w := { w with metrics := { w.metrics with
          addressReachFailure := w.metrics.addressReachFailure + 1 } }
        if w.book.pruneAddresses then { w with book := w.book.removeAddress peerId addr }
        else w
  | none => w

/-- `inject_dial_failure`: redial a peer that gained an address under pruning; otherwise
count the failure and declare a known peer unreachable, deleting it under pruning. -/
def injectDialFailure (w : World) (peerId : PeerId) : World :=
  if w.book.redials peerId then { w with book := w.book.dial peerId }
  else
    let w := { w with metrics := { w.metrics with dialFailure := w.metrics.dialFailure + 1 } }
    if peerId ∈ w.book.peers then
      let w := { w with metrics := { w.metrics with discovered := w.metrics.discovered - 1 } }
      let w := w.notify (.unreachable peerId)
      if w.book.pruneAddresses then
        { w with book := { w.book with peers := w.book.peers.erase peerId } }
      else w
    else w

/-- `inject_new_listener`. -/
@[simp] def injectNewListener (w : World) (id : ListenerId) : World :=
  w.countAndNotify (fun m => { m with listeners := m.listeners + 1 }) (.newListener id)

/-- `inject_new_listen_addr`. -/
@[simp] def injectNewListenAddr (w : World) (id : ListenerId) (addr : Multiaddr) : World :=
  w.countAndNotify (fun m => { m with listenAddrs := m.listenAddrs + 1 }) (.newListenAddr id addr)

/-- `inject_expired_listen_addr`. -/
@[simp] def injectExpiredListenAddr (w : World) (id : ListenerId) (addr : Multiaddr) : World :=
  w.countAndNotify (fun m => { m with listenAddrs := m.listenAddrs - 1 })
    (.expiredListenAddr id addr)

/-- `inject_listener_error`. -/
@[simp] def injectListenerError (w : World) (id : ListenerId) (err : String) : World :=
  w.countAndNotify (fun m => { m with listenerError := m.listenerError + 1 })
    (.listenerError id err)

/-- `inject_listener_closed`. -/
@[simp] def injectListenerClosed (w : World) (id : ListenerId) : World :=
  w.countAndNotify (fun m => { m with listeners := m.listeners - 1 }) (.listenerClosed id)

/-- `inject_new_external_addr`: announce the address normalized with our own peer id. -/
@[simp] def injectNewExternalAddr (w : World) (addr : Multiaddr) : World :=
  w.countAndNotify (fun m => { m with externalAddrs := m.externalAddrs + 1 })
    (.newExternalAddr (normalizeAddr addr w.book.localPeerId))

/-- `inject_expired_external_addr`. -/
@[simp] def injectExpiredExternalAddr (w : World) (addr : Multiaddr) : World :=
  w.countAndNotify (fun m => { m with externalAddrs := m.externalAddrs - 1 })
    (.expiredExternalAddr (normalizeAddr addr w.book.localPeerId))

end World

end IpfsEmbed.Net
