import IpfsEmbed.Net.StepCases

/-!
# Invariants of the peer registry

Facts about the records and the connection tracker that hold in every reachable state. Each is
a `structure` or a predicate preserved by `World.step`, proved by a case analysis over
`step_peers_cases`, `step_connections_cases` and `step_actions_cases`, and lifted to every run
by `Reachable.induction`.

* `local_peer_never_recorded_or_dialled`: the local peer id never gets a record and no queued
  dial targets it, whichever path (`dial`, the redial of `inject_dial_failure`, the connection
  callbacks) the request comes through.
* `tracked_peer_recorded`: a peer tracked through an address that `add_address` accepts has that
  address stored in its record, unless a `remove_address` erased it; with pruning off it has a
  record in any case.
-/

namespace IpfsEmbed.Net

variable {w w' : World} {op : Op}

/-! ## The local peer -/

/-- The local peer has no record, and no queued action dials it. -/
structure LocalPeerExcluded (w : World) : Prop where
  not_mem_peers : w.book.localPeerId ∉ w.book.peers
  not_dialled : ∀ action ∈ w.book.actions, action.peerId ≠ w.book.localPeerId

theorem localPeerExcluded_new (localPeerId : PeerId) (enableLoopback pruneAddresses : Bool) :
    LocalPeerExcluded (World.new localPeerId enableLoopback pruneAddresses) :=
  ⟨AList.not_mem_empty _, fun _ h => nomatch h⟩

/-- A record is only ever written for a peer that already has one or that `add_address`
accepted, so never for the local peer. -/
theorem localPeerExcluded_step (hw : LocalPeerExcluded w) (h : w.step op = some w') :
    LocalPeerExcluded w' := by
  obtain ⟨hlocal, -, -⟩ := World.step_config h
  constructor
  · rw [hlocal]
    rcases World.step_peers_cases h with hpeers | ⟨P, a, s, -, hacc, hpeers⟩ |
        ⟨P, info, info', hinfo, hpeers, -⟩ | ⟨P, -, -, -, -, hpeers⟩
    · exact hpeers ▸ hw.not_mem_peers
    · simpa [hpeers, World.stored, Ne.symm hacc.1] using hw.not_mem_peers
    · have hP : P ≠ w.book.localPeerId := fun hP =>
        hw.not_mem_peers (hP ▸ AList.lookup_isSome.mp (by simp [hinfo]))
      simpa [hpeers, Ne.symm hP] using hw.not_mem_peers
    · simpa [hpeers] using fun _ => hw.not_mem_peers
  · rw [hlocal]
    rcases World.step_actions_cases h with hactions | ⟨-, hactions⟩ | ⟨P, hP, -, hactions⟩
    · exact hactions ▸ hw.not_dialled
    · exact hactions ▸ fun action ha => hw.not_dialled action (List.mem_of_mem_tail ha)
    · rw [hactions]
      intro action ha
      rcases List.mem_append.mp ha with ha | ha
      · exact hw.not_dialled action ha
      · simp only [List.mem_singleton] at ha
        exact ha ▸ hP

/-- In every reachable state the local peer id has no record (so it has no addresses, and
`set_rtt` and `set_info` on it change nothing), and no queued dial, hence none that `poll`
hands out, targets it. -/
theorem local_peer_never_recorded_or_dialled (hw : Reachable w) :
    w.book.localPeerId ∉ w.book.peers ∧
    w.book.addressesOfPeer w.book.localPeerId = [] ∧
    (∀ rtt, w.step (.setRtt w.book.localPeerId rtt) = some w) ∧
    (∀ identify, w.step (.setInfo w.book.localPeerId identify) = some w) ∧
    (∀ action ∈ w.book.actions, action.peerId ≠ w.book.localPeerId) ∧
    (∀ action, w.book.poll.1 = some action → action.peerId ≠ w.book.localPeerId) := by
  have hinv : LocalPeerExcluded w :=
    Reachable.induction localPeerExcluded_new (fun _ _ _ hw h => localPeerExcluded_step hw h) hw
  have hnone : w.book.peers.lookup w.book.localPeerId = none :=
    AList.lookup_eq_none.mpr hinv.not_mem_peers
  refine ⟨hinv.not_mem_peers, by simp [AddressBook.addressesOfPeer, hnone],
    fun rtt => by simp [World.step, World.setRtt, hnone],
    fun identify => by simp [World.step, AddressBook.setInfo_eq, AddressBook.identified, hnone],
    hinv.not_dialled, fun action hpoll => hinv.not_dialled action ?_⟩
  unfold AddressBook.poll at hpoll
  split at hpoll
  · rename_i rest hactions
    cases hpoll
    simp [hactions]
  · cases hpoll

/-- A run that asks to dial the local peer, to store an address for it and to track a
connection to it, and then redials a discovered peer. -/
theorem local_peer_never_recorded_or_dialled_after_self_requests :
    ∃ w, (World.new ⟨0⟩ true true).run
        [.dial ⟨0⟩, .addAddress ⟨0⟩ [.ip4 ⟨10, 0, 0, 1⟩, .tcp 4001] .user,
          .injectConnectionEstablished ⟨0⟩ ⟨7⟩ (.dialer [.ip4 ⟨10, 0, 0, 1⟩, .tcp 4001]),
          .addAddress ⟨1⟩ [.ip4 ⟨10, 0, 0, 2⟩, .tcp 4001] .mdns,
          .injectDialFailure ⟨1⟩] = some w ∧
      w.book.localPeerId ∉ w.book.peers ∧
      w.book.addressesOfPeer w.book.localPeerId = [] ∧
      (∀ rtt, w.step (.setRtt w.book.localPeerId rtt) = some w) ∧
      (∀ identify, w.step (.setInfo w.book.localPeerId identify) = some w) ∧
      (∀ action ∈ w.book.actions, action.peerId ≠ w.book.localPeerId) ∧
      (∀ action, w.book.poll.1 = some action → action.peerId ≠ w.book.localPeerId) := by
  refine ⟨?w, ?run, local_peer_never_recorded_or_dialled (Reachable.of_run ?run)⟩
  case run => exact rfl

/-! ## Tracked peers and their records -/

/-- With pruning off no record is ever deleted. -/
theorem mem_peers_step_of_not_prune (hprune : w.book.pruneAddresses = false)
    (h : w.step op = some w') {P : PeerId} (hP : P ∈ w.book.peers) : P ∈ w'.book.peers := by
  rcases World.step_peers_cases h with hpeers | ⟨Q, a, s, -, -, hpeers⟩ |
      ⟨Q, info, info', -, hpeers, -⟩ | ⟨Q, -, -, hprune', -, -⟩
  · exact hpeers ▸ hP
  · simp [hpeers, World.stored, hP]
  · simp [hpeers, hP]
  · simp [hprune] at hprune'

/-- With pruning off, a peer other than the local one that is tracked through an address that
passes the loopback filter of `add_address` has a record. -/
def TrackedRecorded (w : World) : Prop :=
  w.book.pruneAddresses = false → ∀ P a, w.book.connections.lookup P = some a →
    w.book.Accepts P a → P ∈ w.book.peers

theorem trackedRecorded_step (hw : TrackedRecorded w) (h : w.step op = some w') :
    TrackedRecorded w' := by
  obtain ⟨hlocal, hloop, hprune⟩ := World.step_config h
  intro hprune' P a htracked hacc
  rw [hprune] at hprune'
  have hacc' : w.book.Accepts P a := by
    simpa only [AddressBook.Accepts, hlocal, hloop] using hacc
  rcases World.lookup_connections_step h htracked with hold | ⟨a₀, s, hop, rfl⟩
  · exact mem_peers_step_of_not_prune hprune' h (hw hprune' P _ hold hacc')
  · exact World.mem_peers_of_addressOffer h hop (by simpa [AddressBook.Accepts] using hacc')

/-- `remove_address(P, b)` erases the address `connections()` reports for `P`. -/
def World.erasesTracked (P : PeerId) (w : World) : Op → Bool
  | .removeAddress Q b => Q = P ∧ w.book.connections.lookup P = some (normalizeAddr b P)
  | _ => false

/-- Under pruning, `inject_dial_failure` dials again a peer whose record holds an address. -/
theorem AddressBook.redials_of_mem_addressesOfPeer {b : AddressBook} {P : PeerId} {a : Multiaddr}
    (hprune : b.pruneAddresses = true) (ha : a ∈ b.addressesOfPeer P) : b.redials P = true := by
  obtain ⟨info, hinfo, ha⟩ := AddressBook.mem_addressesOfPeer.mp ha
  simp [AddressBook.redials, hprune, hinfo, List.ne_nil_of_mem (AList.mem_keys.mpr ha)]

/-- The pruning of `inject_addr_reach_failure` spares a connected peer, so only a direct
`remove_address` erases an address of one. -/
theorem Op.Prunes.removeAddress_of_connected {P : PeerId} {a : Multiaddr}
    (hprunes : op.Prunes w P a) (hconn : P ∈ w.book.connections) : op = .removeAddress P a := by
  cases op with
  | removeAddress Q b => obtain ⟨rfl, rfl⟩ := hprunes; rfl
  | injectAddrReachFailure peerId b e =>
      cases peerId with
      | none => exact hprunes.elim
      | some Q => simp [Op.Prunes, AddressBook.isConnected, hconn] at hprunes
  | _ => exact hprunes.elim

/-- An address stored for a connected peer stays stored through a step, unless the step is a
`remove_address` of that very address: `inject_dial_failure` dials a peer with an address again
instead of deleting its record. -/
theorem mem_addressesOfPeer_step_of_connected (h : w.step op = some w') {P : PeerId}
    {a : Multiaddr} (hconn : P ∈ w.book.connections) (ha : a ∈ w.book.addressesOfPeer P)
    (hop : ∀ b, op = .removeAddress P b → normalizeAddr b P ≠ a) :
    a ∈ w'.book.addressesOfPeer P := by
  have hstored := ha
  obtain ⟨info, hinfo, ha⟩ := AddressBook.mem_addressesOfPeer.mp ha
  refine AddressBook.mem_addressesOfPeer.mpr ?_
  rcases World.step_peers_cases h with hpeers | ⟨Q, b, s, -, -, hpeers⟩ |
      ⟨Q, old, new, hold, hpeers, hnew⟩ | ⟨Q, rfl, -, hprune, hredial, hpeers⟩
  · exact ⟨info, hpeers ▸ hinfo, ha⟩
  · rw [hpeers, World.lookup_stored]
    split_ifs with hPQ
    · exact ⟨_, rfl, World.mem_storeAddress.mpr (.inr (by simpa [hPQ ▸ hinfo] using ha))⟩
    · exact ⟨info, hinfo, ha⟩
  · by_cases hPQ : P = Q
    · subst hPQ
      rw [hinfo, Option.some.injEq] at hold
      subst hold
      refine ⟨new, by simp [hpeers], ?_⟩
      rcases hnew with hsame | ⟨b, hprunes, herase⟩
      · exact hsame ▸ ha
      · rw [herase, AList.mem_erase]
        exact ⟨fun hb => hop b (hprunes.removeAddress_of_connected hconn) hb.symm, ha⟩
    · exact ⟨info, by simp [hpeers, AList.lookup_insert_ne hPQ, hinfo], ha⟩
  · by_cases hPQ : P = Q
    · subst hPQ
      simp [AddressBook.redials_of_mem_addressesOfPeer hprune hstored] at hredial
    · exact ⟨info, by simp [hpeers, AList.lookup_erase_ne hPQ, hinfo], ha⟩

/-- The address through which `P` is tracked, when it passes the loopback filter of
`add_address`, is stored in the record of `P`. -/
def TrackedStored (P : PeerId) (w : World) : Prop :=
  ∀ a, w.book.connections.lookup P = some a → w.book.Accepts P a →
    a ∈ w.book.addressesOfPeer P

/-- Every step but a `remove_address` of the tracked address keeps it stored: a connection
callback that changes it also hands it to `add_address`. -/
theorem trackedStored_step {P : PeerId} (hw : TrackedStored P w)
    (hop : World.erasesTracked P w op = false) (h : w.step op = some w') :
    TrackedStored P w' := by
  obtain ⟨hlocal, hloop, -⟩ := World.step_config h
  intro a htracked hacc
  have hacc' : w.book.Accepts P a := by
    simpa only [AddressBook.Accepts, hlocal, hloop] using hacc
  rcases World.lookup_connections_step h htracked with hold | ⟨a₀, s, hoffer, rfl⟩
  · refine mem_addressesOfPeer_step_of_connected h (AList.lookup_isSome.mp (by simp [hold]))
      (hw _ hold hacc') fun b hb heq => ?_
    subst hb
    simp [World.erasesTracked, hold, heq] at hop
  · have hacc₀ : w.book.Accepts P a₀ := by simpa [AddressBook.Accepts] using hacc'
    exact World.normalizeAddr_mem_step_of_addressOffer h hoffer hacc₀

/-- For every run from `AddressBook::new` and every peer `P` other than the local one that
`connections()` reports with an address `a` passing the loopback filter of `add_address`: with
pruning off `P` has a record; and, under either flag, if no `remove_address` of the run erased
the address `P` was tracked through at the time, `a` is stored in the record of `P`. The local
peer, a peer tracked through a filtered address, and, under pruning, a peer whose tracked address
was removed and whose record `inject_dial_failure` then deleted, can be tracked without one. -/
theorem tracked_peer_recorded {localPeerId : PeerId} {enableLoopback pruneAddresses : Bool}
    {ops : List Op} {w : World}
    (hrun : (World.new localPeerId enableLoopback pruneAddresses).run ops = some w)
    {P : PeerId} {a : Multiaddr} (htracked : w.book.connections.lookup P = some a)
    (hacc : w.book.Accepts P a) :
    (pruneAddresses = false → P ∈ w.book.peers) ∧
    ((World.new localPeerId enableLoopback pruneAddresses).countSteps (World.erasesTracked P)
        ops = 0 → P ∈ w.book.peers ∧ a ∈ w.book.addressesOfPeer P) := by
  have hprune : w.book.pruneAddresses = pruneAddresses := (World.run_config hrun).2.2
  refine ⟨fun hoff => ?_, fun hnone => ?_⟩
  · have hinv : TrackedRecorded w :=
      Reachable.induction (fun _ _ _ _ _ _ h => by simp [World.new, AddressBook.new] at h)
        (fun _ _ _ hw h => trackedRecorded_step hw h) (Reachable.of_run hrun)
    exact hinv (hprune.trans hoff) P a htracked hacc
  · have hstored : a ∈ w.book.addressesOfPeer P :=
      @run_invariant_of_countSteps_eq_zero (TrackedStored P) _
        (fun _ _ _ hop hw h => trackedStored_step hw hop h) _ _ _ hnone
        (fun _ h _ => by simp [World.new, AddressBook.new] at h) hrun a htracked hacc
    exact ⟨AddressBook.mem_peers_of_mem_addressesOfPeer hstored, hstored⟩

/-- A peer dialled over IPv4 with loopback disabled and pruning on, whose record also lost an
address it was not tracked through. -/
theorem tracked_peer_recorded_over_ip4 :
    ∃ w, (World.new ⟨0⟩ false true).run
        [.addAddress ⟨1⟩ [.ip4 ⟨3, 3, 3, 3⟩, .tcp 3333] .mdns,
          .injectConnectionEstablished ⟨1⟩ ⟨0⟩ (.dialer [.ip4 ⟨1, 1, 1, 1⟩, .tcp 3333]),
          .removeAddress ⟨1⟩ [.ip4 ⟨3, 3, 3, 3⟩, .tcp 3333]] = some w ∧
      w.book.connections.lookup ⟨1⟩ = some [.ip4 ⟨1, 1, 1, 1⟩, .tcp 3333, .p2p ⟨1⟩] ∧
      w.book.Accepts ⟨1⟩ [.ip4 ⟨1, 1, 1, 1⟩, .tcp 3333, .p2p ⟨1⟩] ∧
      (true = false → ⟨1⟩ ∈ w.book.peers) ∧
      ((World.new ⟨0⟩ false true).countSteps (World.erasesTracked ⟨1⟩)
          [.addAddress ⟨1⟩ [.ip4 ⟨3, 3, 3, 3⟩, .tcp 3333] .mdns,
            .injectConnectionEstablished ⟨1⟩ ⟨0⟩ (.dialer [.ip4 ⟨1, 1, 1, 1⟩, .tcp 3333]),
            .removeAddress ⟨1⟩ [.ip4 ⟨3, 3, 3, 3⟩, .tcp 3333]] = 0 →
        ⟨1⟩ ∈ w.book.peers ∧
          [.ip4 ⟨1, 1, 1, 1⟩, .tcp 3333, .p2p ⟨1⟩] ∈ w.book.addressesOfPeer ⟨1⟩) := by
  refine ⟨?w, ?run, ?tracked, ?accepts, tracked_peer_recorded ?run ?tracked ?accepts⟩
  case run => exact rfl
  all_goals decide

/-- Three peers tracked without a record: the local peer, a peer connected over IPv6 while
loopback is disabled (`is_loopback` flags every address not starting with IPv4), and a peer whose
record `inject_dial_failure` deleted under pruning after its address was removed. -/
theorem tracked_peers_without_record :
    ∃ w, (World.new ⟨0⟩ false true).run
        [.injectConnectionEstablished ⟨0⟩ ⟨0⟩ (.dialer [.ip4 ⟨1, 1, 1, 1⟩, .tcp 3333]),
          .injectConnectionEstablished ⟨1⟩ ⟨1⟩
            (.dialer [.ip6 ⟨0x20010db8000000000000000000000001⟩, .tcp 4001]),
          .injectConnectionEstablished ⟨2⟩ ⟨2⟩ (.dialer [.ip4 ⟨2, 2, 2, 2⟩, .tcp 3333]),
          .removeAddress ⟨2⟩ [.ip4 ⟨2, 2, 2, 2⟩, .tcp 3333],
          .injectDialFailure ⟨2⟩] = some w ∧
      ∀ P ∈ [(⟨0⟩ : PeerId), ⟨1⟩, ⟨2⟩], P ∈ w.book.connections ∧ P ∉ w.book.peers :=
  ⟨_, rfl, by decide⟩

/-! ## Trailing `/p2p` components -/

/-- Every stored address and every tracked address ends with a `/p2p` component. -/
structure AddressesEndWithP2p (w : World) : Prop where
  stored : ∀ P, ∀ a ∈ w.book.addressesOfPeer P, EndsWithP2p a
  tracked : ∀ P a, w.book.connections.lookup P = some a → EndsWithP2p a

theorem addressesEndWithP2p_step (hw : AddressesEndWithP2p w) (h : w.step op = some w') :
    AddressesEndWithP2p w' where
  stored P a ha := by
    rcases World.mem_addressesOfPeer_step h ha with ha | ⟨a₀, s, -, -, rfl⟩
    · exact hw.stored P a ha
    · exact endsWithP2p_normalizeAddr a₀ P
  tracked P a ha := by
    rcases World.lookup_connections_step h ha with ha | ⟨a₀, s, -, rfl⟩
    · exact hw.tracked P a ha
    · exact endsWithP2p_normalizeAddr a₀ P

theorem AddressesEndWithP2p.of_reachable (hw : Reachable w) : AddressesEndWithP2p w :=
  Reachable.induction (fun _ _ _ => ⟨fun _ _ h => by simp [World.new, AddressBook.new,
      AddressBook.addressesOfPeer] at h, fun _ _ h => by simp [World.new, AddressBook.new] at h⟩)
    (fun _ _ _ hw h => addressesEndWithP2p_step hw h) hw

/-- In every reachable state each address stored in a record, and each address
`connections()` reports, ends with a `/p2p` component; and a step stores or tracks for `P` an
address whose trailing component names another peer only when it was handed that very address,
since normalization keeps a trailing `/p2p` component whichever peer it names. -/
theorem stored_addresses_end_with_p2p (hw : Reachable w) :
    (∀ P, ∀ a ∈ w.book.addressesOfPeer P, EndsWithP2p a) ∧
    (∀ P a, w.book.connections.lookup P = some a → EndsWithP2p a) ∧
    ∀ op w' P a Q, w.step op = some w' → a.getLast? = some (.p2p Q) → Q ≠ P →
      (a ∈ w'.book.addressesOfPeer P ∧ a ∉ w.book.addressesOfPeer P ∨
        w'.book.connections.lookup P = some a ∧ w.book.connections.lookup P ≠ some a) →
      ∃ s, op.addressOffer = some (P, a, s) := by
  have hinv := AddressesEndWithP2p.of_reachable hw
  refine ⟨hinv.stored, hinv.tracked, fun op w' P a Q h hlast hQP hnew => ?_⟩
  have hforeign : ∀ a₀, a = normalizeAddr a₀ P → a = a₀ := fun a₀ ha =>
    ha.trans (normalizeAddr_eq_self_of_foreign hQP (ha ▸ hlast))
  rcases hnew with ⟨ha, hold⟩ | ⟨ha, hold⟩
  · rcases World.mem_addressesOfPeer_step h ha with ha | ⟨a₀, s, hop, -, ha⟩
    · exact absurd ha hold
    · exact ⟨s, hforeign a₀ ha ▸ hop⟩
  · rcases World.lookup_connections_step h ha with ha | ⟨a₀, s, hop, ha⟩
    · exact absurd ha hold
    · exact ⟨s, hforeign a₀ ha ▸ hop⟩

/-- A run that stores an address for one peer and tracks a connection to it. -/
theorem stored_addresses_end_with_p2p_after_connection :
    ∃ w, (World.new ⟨0⟩ false true).run
        [.addAddress ⟨1⟩ [.ip4 ⟨1, 1, 1, 1⟩, .tcp 3333] .mdns,
          .injectConnectionEstablished ⟨1⟩ ⟨0⟩ (.dialer [.ip4 ⟨2, 2, 2, 2⟩, .tcp 3333])] =
          some w ∧
      (∀ P, ∀ a ∈ w.book.addressesOfPeer P, EndsWithP2p a) ∧
      (∀ P a, w.book.connections.lookup P = some a → EndsWithP2p a) ∧
      ∀ op w' P a Q, w.step op = some w' → a.getLast? = some (.p2p Q) → Q ≠ P →
        (a ∈ w'.book.addressesOfPeer P ∧ a ∉ w.book.addressesOfPeer P ∨
          w'.book.connections.lookup P = some a ∧ w.book.connections.lookup P ≠ some a) →
        ∃ s, op.addressOffer = some (P, a, s) := by
  refine ⟨?w, ?run, stored_addresses_end_with_p2p (Reachable.of_run ?run)⟩
  case run => exact rfl

/-- `add_address` stores under peer 1 an address whose trailing component names peer 2. -/
theorem stored_address_names_other_peer :
    ∃ w, (World.new ⟨0⟩ false true).run
        [.addAddress ⟨1⟩ [.ip4 ⟨1, 1, 1, 1⟩, .tcp 3333, .p2p ⟨2⟩] .mdns] = some w ∧
      [.ip4 ⟨1, 1, 1, 1⟩, .tcp 3333, .p2p ⟨2⟩] ∈ w.book.addressesOfPeer ⟨1⟩ :=
  ⟨_, rfl, by decide⟩

end IpfsEmbed.Net
