import IpfsEmbed.Net.Run

/-!
# What each operation changes

One group of lemmas per method of the book, stating what it does to each part of the world,
so that the invariant proofs cite them and never unfold a method. `notify` touches only the
senders, the channels and the journal; `addAddress_of_accepts` and `addAddress_of_rejects`
split `add_address` at its guards; `setRtt_cases`, `step_injectAddrReachFailure` and
`step_injectDialFailure` list the outcomes of the methods that branch; `step_config` says that
no operation changes the local peer id or the two flags.
-/

namespace IpfsEmbed.Net

attribute [simp] AList.lookup_insert AList.lookup_erase AList.mem_insert AList.mem_erase

/-! ## `notify` -/

namespace World

variable (w : World) (event : Event)

@[simp] theorem notify_book :
    (w.notify event).book =
      { w.book with eventStream := (retainSend event w.book.eventStream w.channels).1 } := rfl

@[simp] theorem notify_channels :
    (w.notify event).channels = (retainSend event w.book.eventStream w.channels).2 := rfl

@[simp] theorem notify_journal : (w.notify event).journal = w.journal ++ [event] := rfl

@[simp] theorem notify_metrics : (w.notify event).metrics = w.metrics := rfl

@[simp] theorem isConnected_notify (peer : PeerId) :
    (w.notify event).book.isConnected peer = w.book.isConnected peer := rfl

/-- The callbacks that move a gauge and announce an event change the world as `notify` does,
apart from the gauge. -/
@[simp] theorem countAndNotify_eq (count : Metrics → Metrics) :
    w.countAndNotify count event = { w.notify event with metrics := count w.metrics } := rfl

/-! ## What a subscriber does with its `SwarmEvents`: only its own channel changes -/

variable (rx : Nat)

@[simp] theorem dropSwarmEvents_book : (w.dropSwarmEvents rx).book = w.book := by
  unfold dropSwarmEvents; split <;> rfl

@[simp] theorem dropSwarmEvents_metrics : (w.dropSwarmEvents rx).metrics = w.metrics := by
  unfold dropSwarmEvents; split <;> rfl

@[simp] theorem dropSwarmEvents_journal : (w.dropSwarmEvents rx).journal = w.journal := by
  unfold dropSwarmEvents; split <;> rfl

@[simp] theorem pollSwarmEvents_book : (w.pollSwarmEvents rx).book = w.book := by
  unfold pollSwarmEvents; split <;> rfl

@[simp] theorem pollSwarmEvents_metrics : (w.pollSwarmEvents rx).metrics = w.metrics := by
  unfold pollSwarmEvents; split <;> rfl

@[simp] theorem pollSwarmEvents_journal : (w.pollSwarmEvents rx).journal = w.journal := by
  unfold pollSwarmEvents; split <;> rfl

end World

/-! ## `add_address` -/

namespace AddressBook

/-- `add_address` gets past its two guards: the peer is not the local one, and loopback is
enabled or `is_loopback` clears the address. -/
def Accepts (b : AddressBook) (peer : PeerId) (address : Multiaddr) : Prop :=
  peer ≠ b.localPeerId ∧ (b.enableLoopback = true ∨ address.isLoopback = false)

instance (b : AddressBook) (peer : PeerId) (address : Multiaddr) :
    Decidable (b.Accepts peer address) :=
  inferInstanceAs (Decidable (_ ∧ _))

end AddressBook

/-- The record `add_address` leaves behind: a new address with its source, a known one with
its old source. -/
def PeerInfo.storeAddress (info : PeerInfo) (address : Multiaddr) (source : AddressSource) :
    PeerInfo :=
  if address ∉ info.addresses then { info with addresses := info.addresses.insert address source }
  else info

namespace World

variable {w : World} {peer : PeerId} {address : Multiaddr} {source : AddressSource}

/-- The record of `peer` once `add_address` has stored `address` in it. -/
def stored (w : World) (peer : PeerId) (address : Multiaddr) (source : AddressSource) : World :=
  let info := ((w.book.peers.lookup peer).getD {}).storeAddress (normalizeAddr address peer) source
  { w with book := { w.book with peers := w.book.peers.insert peer info } }

theorem addAddress_of_rejects (h : ¬ w.book.Accepts peer address) :
    w.addAddress peer address source = w := by
  unfold addAddress AddressBook.Accepts at *
  split_ifs <;> simp_all

theorem addAddress_of_accepts (h : w.book.Accepts peer address) :
    w.addAddress peer address source =
      if peer ∈ w.book.peers then w.stored peer address source
      else (w.stored peer address source).notify (.discovered peer) := by
  obtain ⟨hlocal, hloop⟩ := h
  have hguard : (!w.book.enableLoopback && address.isLoopback) = false := by
    rcases hloop with h | h <;> simp [h]
  by_cases hmem : peer ∈ w.book.peers <;>
    simp [addAddress, stored, PeerInfo.storeAddress, hlocal, hguard, hmem]

end World

end IpfsEmbed.Net

namespace IpfsEmbed.Net

/-! ## The methods that only touch the book -/

namespace AddressBook

variable (b : AddressBook) (peer : PeerId) (address : Multiaddr)

theorem dial_eq : b.dial peer = { b with actions :=
    if peer = b.localPeerId then b.actions else b.actions ++ [.dialPeer peer .disconnected] } := by
  unfold dial; split_ifs <;> rfl

/-- The record of `peer` after `remove_address` erased the normalized address from it. -/
def erased (b : AddressBook) (peer : PeerId) (address : Multiaddr) :
    AList (fun _ : PeerId => PeerInfo) :=
  match b.peers.lookup peer with
  | some info =>
      let info := { info with addresses := info.addresses.erase (normalizeAddr address peer) }
      b.peers.insert peer info
  | none => b.peers

theorem removeAddress_eq :
    b.removeAddress peer address = { b with peers := b.erased peer address } := by
  unfold removeAddress erased
  split <;> simp_all

/-- The records after `set_info` overwrote the identify fields of `peer`. -/
def identified (b : AddressBook) (peer : PeerId) (identify : IdentifyInfo) :
    AList (fun _ : PeerId => PeerInfo) :=
  match b.peers.lookup peer with
  | some info =>
      let info := { info with protocolVersion := some identify.protocolVersion,
                              agentVersion := some identify.agentVersion,
                              protocols := identify.protocols }
      b.peers.insert peer info
  | none => b.peers

theorem setInfo_eq (identify : IdentifyInfo) :
    b.setInfo peer identify = { b with peers := b.identified peer identify } := by
  unfold setInfo identified
  split <;> simp_all

theorem poll_snd : b.poll.2 = { b with actions := b.actions.tail } := by
  cases b with
  | mk enableLoopback pruneAddresses localPeerId peers connections eventStream actions =>
      cases actions <;> rfl

end AddressBook

/-! ## The world-level methods -/

namespace World

variable {w w' : World} {peer : PeerId} {address : Multiaddr} {source : AddressSource}

theorem addAddress_book : (w.addAddress peer address source).book =
    { w.book with
      peers := if w.book.Accepts peer address then (w.stored peer address source).book.peers
        else w.book.peers,
      eventStream := if w.book.Accepts peer address ∧ peer ∉ w.book.peers then
        (retainSend (.discovered peer) w.book.eventStream w.channels).1
      else w.book.eventStream } := by
  by_cases h : w.book.Accepts peer address
  · rw [addAddress_of_accepts h]
    by_cases hm : peer ∈ w.book.peers <;> simp [h, hm, stored]
  · simp [addAddress_of_rejects h, h]

@[simp] theorem addAddress_metrics : (w.addAddress peer address source).metrics = w.metrics := by
  by_cases h : w.book.Accepts peer address
  · rw [addAddress_of_accepts h]
    split_ifs <;> rfl
  · rw [addAddress_of_rejects h]

/-- `set_rtt` either finds no record and changes nothing, or rewrites the record's `rtt` and
announces it. -/
theorem setRtt_cases {rtt : Option Duration} (h : w.setRtt peer rtt = some w') :
    (peer ∉ w.book.peers ∧ w' = w) ∨
      ∃ info updated, w.book.peers.lookup peer = some info ∧
        w' = ({ w with book := { w.book with
          peers := w.book.peers.insert peer { info with rtt := updated } } }).notify
            (.newInfo peer) := by
  unfold setRtt at h
  split at h
  · rename_i info hinfo
    obtain ⟨updated, -, rfl⟩ := Option.map_eq_some'.mp h
    exact .inr ⟨info, updated, hinfo, rfl⟩
  · exact .inl ⟨AList.lookup_eq_none.mp ‹_›, (Option.some.inj h).symm⟩

/-- The three outcomes of `inject_addr_reach_failure` for a peer: the report alone when the
peer is connected, and otherwise the report with the failure counted and, under pruning, the
address removed. -/
theorem step_injectAddrReachFailure {error : String}
    (h : w.step (.injectAddrReachFailure (some peer) address error) = some w') :
    let notified := w.notify (.dialFailure peer address error)
    let counted := { w.metrics with addressReachFailure := w.metrics.addressReachFailure + 1 }
    (w.book.isConnected peer = true ∧ w' = notified) ∨
    (w.book.isConnected peer = false ∧ w.book.pruneAddresses = true ∧
      w' = { notified with book := notified.book.removeAddress peer address, metrics := counted }) ∨
    (w.book.isConnected peer = false ∧ w.book.pruneAddresses = false ∧
      w' = { notified with metrics := counted }) := by
  cases h
  simp only [injectAddrReachFailure, isConnected_notify]
  cases hc : w.book.isConnected peer <;> cases hp : w.book.pruneAddresses <;> simp [hc, hp]

/-- The four outcomes of `inject_dial_failure`: a redial, or the failure counted and, for a
known peer, the peer announced unreachable and, under pruning, its record deleted. -/
theorem step_injectDialFailure (h : w.step (.injectDialFailure peer) = some w') :
    let counted := { w.metrics with dialFailure := w.metrics.dialFailure + 1 }
    let unreachable := ({ w with metrics := { counted with
      discovered := w.metrics.discovered - 1 } }).notify (.unreachable peer)
    (w.book.redials peer = true ∧ w' = { w with book := w.book.dial peer }) ∨
    (w.book.redials peer = false ∧ peer ∈ w.book.peers ∧ w.book.pruneAddresses = true ∧
      w' = { unreachable with book := { unreachable.book with
        peers := w.book.peers.erase peer } }) ∨
    (w.book.redials peer = false ∧ peer ∈ w.book.peers ∧ w.book.pruneAddresses = false ∧
      w' = unreachable) ∨
    (w.book.redials peer = false ∧ peer ∉ w.book.peers ∧ w' = { w with metrics := counted }) := by
  cases h
  unfold injectDialFailure
  by_cases hm : peer ∈ w.book.peers <;> cases hr : w.book.redials peer <;>
    cases hp : w.book.pruneAddresses <;> simp [hm, hr, hp]

@[simp] theorem injectAddrReachFailure_none (error : String) :
    w.injectAddrReachFailure none address error = w := rfl

/-- `inject_addr_reach_failure` touches neither the connection tracker nor the action queue. -/
@[simp] theorem injectAddrReachFailure_connections (peerId : Option PeerId) (error : String) :
    (w.injectAddrReachFailure peerId address error).book.connections = w.book.connections := by
  cases peerId with
  | none => rfl
  | some peerId =>
      rcases @step_injectAddrReachFailure w _ peerId address error rfl with
        ⟨-, h⟩ | ⟨-, -, h⟩ | ⟨-, -, h⟩ <;> simp [h, AddressBook.removeAddress_eq]

@[simp] theorem injectAddrReachFailure_actions (peerId : Option PeerId) (error : String) :
    (w.injectAddrReachFailure peerId address error).book.actions = w.book.actions := by
  cases peerId with
  | none => rfl
  | some peerId =>
      rcases @step_injectAddrReachFailure w _ peerId address error rfl with
        ⟨-, h⟩ | ⟨-, -, h⟩ | ⟨-, -, h⟩ <;> simp [h, AddressBook.removeAddress_eq]

/-- `inject_dial_failure` does not touch the connection tracker. -/
@[simp] theorem injectDialFailure_connections (peerId : PeerId) :
    (w.injectDialFailure peerId).book.connections = w.book.connections := by
  rcases @step_injectDialFailure w _ peerId rfl with
    ⟨-, h⟩ | ⟨-, -, -, h⟩ | ⟨-, -, -, h⟩ | ⟨-, -, h⟩ <;> simp [h, AddressBook.dial_eq]

/-- No operation changes the local peer id or the two flags of the book. -/
theorem step_config {op : Op} (h : w.step op = some w') :
    w'.book.localPeerId = w.book.localPeerId ∧ w'.book.enableLoopback = w.book.enableLoopback ∧
      w'.book.pruneAddresses = w.book.pruneAddresses := by
  cases op with
  | setRtt peerId rtt =>
      rcases setRtt_cases h with ⟨-, rfl⟩ | ⟨info, updated, -, rfl⟩ <;> simp
  | injectAddrReachFailure peerId addr error =>
      cases peerId with
      | none => cases h; exact ⟨rfl, rfl, rfl⟩
      | some peerId =>
          rcases step_injectAddrReachFailure h with ⟨-, rfl⟩ | ⟨-, -, rfl⟩ | ⟨-, -, rfl⟩ <;>
            simp [AddressBook.removeAddress_eq]
  | injectDialFailure peerId =>
      rcases step_injectDialFailure h with ⟨-, rfl⟩ | ⟨-, -, -, rfl⟩ | ⟨-, -, -, rfl⟩ |
        ⟨-, -, rfl⟩ <;> simp [AddressBook.dial_eq]
  | _ =>
      cases h
      simp [AddressBook.dial_eq, AddressBook.removeAddress_eq, AddressBook.setInfo_eq,
        AddressBook.poll_snd, swarmEvents, addAddress_book, trackConnection, injectConnectionClosed]

/-- No run changes the local peer id or the two flags of the book. -/
theorem run_config {ops : List Op} (h : w.run ops = some w') :
    w'.book.localPeerId = w.book.localPeerId ∧ w'.book.enableLoopback = w.book.enableLoopback ∧
      w'.book.pruneAddresses = w.book.pruneAddresses :=
  @run_invariant (fun v => v.book.localPeerId = w.book.localPeerId ∧
      v.book.enableLoopback = w.book.enableLoopback ∧
      v.book.pruneAddresses = w.book.pruneAddresses) (fun _ => True)
    (fun _ _ _ _ ⟨h1, h2, h3⟩ hstep =>
      ⟨(step_config hstep).1.trans h1, (step_config hstep).2.1.trans h2,
        (step_config hstep).2.2.trans h3⟩)
    ops w w' (fun _ _ => trivial) ⟨rfl, rfl, rfl⟩ h

end World

/-! ## Membership in the records -/

namespace AddressBook

variable {b : AddressBook} {peer : PeerId} {address : Multiaddr}

theorem mem_peers_of_lookup {info : PeerInfo} (h : b.peers.lookup peer = some info) :
    peer ∈ b.peers :=
  AList.lookup_isSome.mp (by simp [h])

theorem mem_peers_of_mem_addressesOfPeer (h : address ∈ b.addressesOfPeer peer) :
    peer ∈ b.peers := by
  unfold addressesOfPeer at h
  split at h
  · exact mem_peers_of_lookup ‹_›
  · cases h

/-- `addresses_of_peer` lists exactly the addresses stored in the peer's record. -/
theorem mem_addressesOfPeer :
    address ∈ b.addressesOfPeer peer ↔
      ∃ info, b.peers.lookup peer = some info ∧ address ∈ info.addresses := by
  unfold addressesOfPeer
  split <;> simp_all [AList.mem_keys]

end AddressBook

namespace World

variable {w : World} {peer P : PeerId} {address : Multiaddr} {source : AddressSource}

theorem lookup_stored :
    (w.stored peer address source).book.peers.lookup P =
      if P = peer then
        some (((w.book.peers.lookup peer).getD {}).storeAddress (normalizeAddr address peer) source)
      else w.book.peers.lookup P := by
  split_ifs with h
  · subst h; simp [stored]
  · simp [stored, AList.lookup_insert_ne h]

/-- The addresses of a record after `add_address` stored the normalized address in it. -/
theorem mem_storeAddress {info : PeerInfo} {a : Multiaddr} :
    a ∈ (info.storeAddress address source).addresses ↔
      a = address ∨ a ∈ info.addresses := by
  by_cases h : address ∈ info.addresses
  · simp only [PeerInfo.storeAddress, h, not_true_eq_false, if_false]
    exact ⟨Or.inr, by rintro (rfl | h') <;> assumption⟩
  · simp [PeerInfo.storeAddress, h]

end World

end IpfsEmbed.Net
