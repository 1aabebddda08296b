import IpfsEmbed.Net.StepCases

/-!
# The address map of a record

Two views of the addresses `add_address` keeps. `add_address_loopback_filter` is the single
call: what the loopback guard lets through. `address_map_replays_accepted_updates` is the whole
run: the map a record holds is the replay, on an abstract map keyed by `normalizeAddr a peer`,
of the address updates accepted since the record was created, where an addition keeps an entry
that is already there and a removal deletes it. `addressMap_step` is the simulation step it
rests on. A record is created exactly by an `add_address`, direct or from a connection
callback, that passes the guards for a peer without one (`World.mem_peers_step_iff`), so the
log starts afresh at that call.
-/

namespace IpfsEmbed.Net

variable {w w' : World} {op : Op} {P : PeerId} {a : Multiaddr} {s : AddressSource}

/-! ## The loopback filter of `add_address` -/

/-- For a peer other than the local one: with loopback enabled `add_address` stores the
normalized address. With loopback disabled it changes nothing, and emits nothing, whenever
`is_loopback` holds, which is exactly when the address does not start with a non-loopback IPv4
address (so for an IPv4 loopback address, for every IPv6 address, for any other first component
and for the empty address), and it stores the normalized address otherwise. -/
theorem add_address_loopback_filter (w : World) (hP : P ≠ w.book.localPeerId) (a : Multiaddr)
    (s : AddressSource) :
    (w.book.enableLoopback = true →
      normalizeAddr a P ∈ (w.addAddress P a s).book.addressesOfPeer P) ∧
    (w.book.enableLoopback = false →
      (a.isLoopback = false ↔ ∃ ip rest, a = .ip4 ip :: rest ∧ ip.isLoopback = false) ∧
      (a.isLoopback = true → w.addAddress P a s = w) ∧
      (a.isLoopback = false →
        normalizeAddr a P ∈ (w.addAddress P a s).book.addressesOfPeer P)) := by
  refine ⟨fun hloop => normalizeAddr_mem_addAddress ⟨hP, .inl hloop⟩,
    fun hloop => ⟨isLoopback_eq_false_iff a, fun ha => ?_,
      fun ha => normalizeAddr_mem_addAddress ⟨hP, .inr ha⟩⟩⟩
  exact World.addAddress_of_rejects fun ⟨_, h⟩ => by simp_all

/-- A peer other than the local one, offered a public IPv4 address with loopback disabled. -/
theorem add_address_loopback_filter_public_ip4 :
    (⟨1⟩ : PeerId) ≠ (World.new ⟨0⟩ false true).book.localPeerId ∧
    ((World.new ⟨0⟩ false true).book.enableLoopback = false →
      (Multiaddr.isLoopback [.ip4 ⟨1, 1, 1, 1⟩, .tcp 3333] = false ↔
        ∃ ip rest, [.ip4 ⟨1, 1, 1, 1⟩, .tcp 3333] = Protocol.ip4 ip :: rest ∧
          ip.isLoopback = false) ∧
      (Multiaddr.isLoopback [.ip4 ⟨1, 1, 1, 1⟩, .tcp 3333] = true →
        (World.new ⟨0⟩ false true).addAddress ⟨1⟩ [.ip4 ⟨1, 1, 1, 1⟩, .tcp 3333] .mdns =
          World.new ⟨0⟩ false true) ∧
      (Multiaddr.isLoopback [.ip4 ⟨1, 1, 1, 1⟩, .tcp 3333] = false →
        normalizeAddr [.ip4 ⟨1, 1, 1, 1⟩, .tcp 3333] ⟨1⟩ ∈
          ((World.new ⟨0⟩ false true).addAddress ⟨1⟩ [.ip4 ⟨1, 1, 1, 1⟩, .tcp 3333]
            .mdns).book.addressesOfPeer ⟨1⟩)) :=
  ⟨by decide, (add_address_loopback_filter (World.new ⟨0⟩ false true) (by decide) _ .mdns).2⟩

/-- With loopback disabled, `add_address` drops a global IPv6 address: `2001:db8::1` is not a
loopback address, yet nothing is stored for the peer. -/
theorem add_address_drops_global_ipv6 :
    Ipv6Addr.isLoopback ⟨0x20010db8000000000000000000000001⟩ = false ∧
    normalizeAddr [.ip6 ⟨0x20010db8000000000000000000000001⟩, .tcp 4001] ⟨1⟩ ∉
      ((World.new ⟨0⟩ false true).addAddress ⟨1⟩
        [.ip6 ⟨0x20010db8000000000000000000000001⟩, .tcp 4001] .mdns).book.addressesOfPeer ⟨1⟩ :=
  ⟨by decide, by decide⟩

/-! ## The abstract address map -/

/-- The address map of a peer's record, empty when the peer has no record. -/
def AddressBook.addressMap (b : AddressBook) (peer : PeerId) (key : Multiaddr) :
    Option AddressSource :=
  (b.peers.lookup peer).bind fun info => info.addresses.lookup key

/-- An accepted address update, keyed by the normalized address. -/
inductive AddressUpdate where
  | add (key : Multiaddr) (source : AddressSource)
  | remove (key : Multiaddr)

/-- The abstract map after an update: an addition keeps the source of an entry that is already
there, a removal deletes the entry. -/
def applyUpdate (m : Multiaddr → Option AddressSource) :
    AddressUpdate → Multiaddr → Option AddressSource
  | .add key source => fun k => if k = key then (m k).or (some source) else m k
  | .remove key => fun k => if k = key then none else m k

/-- The abstract map a list of updates builds from the empty one. -/
def replay (updates : List AddressUpdate) : Multiaddr → Option AddressSource :=
  updates.foldl applyUpdate fun _ => none

theorem replay_concat (updates : List AddressUpdate) (update : AddressUpdate) :
    replay (updates ++ [update]) = applyUpdate (replay updates) update := by
  simp [replay]

/-- The address update a step makes on the record of `peer`, as the specification describes
it: `add_address` past its guards, called directly or by a connection callback, adds the key
`normalizeAddr a peer`; `remove_address`, and the pruning of `inject_addr_reach_failure` on a
peer that is not connected, delete the key. -/
def addressUpdate (w : World) (op : Op) (peer : PeerId) : Option AddressUpdate :=
  match op.addressOffer with
  | some (P, a, source) =>
      if P = peer ∧ w.book.Accepts P a then some (.add (normalizeAddr a peer) source) else none
  | none =>
      match op with
      | .removeAddress P a => if P = peer then some (.remove (normalizeAddr a peer)) else none
      | .injectAddrReachFailure (some P) a _ =>
          if P = peer ∧ w.book.isConnected P = false ∧ w.book.pruneAddresses = true then
            some (.remove (normalizeAddr a peer))
          else none
      | _ => none

/-- The accepted address updates of `peer` along a run from `w`, appended to `log` and started
afresh at every step after which `peer` has no record. -/
def World.addressLog (peer : PeerId) : World → List Op → List AddressUpdate → List AddressUpdate
  | _, [], log => log
  | w, op :: ops, log =>
      match w.step op with
      | some w' => w'.addressLog peer ops
          (if peer ∈ w'.book.peers then log ++ (addressUpdate w op peer).toList else [])
      | none => log

/-! ## What each method does to the address map -/

namespace AddressBook

variable {b : AddressBook} {Q : PeerId}

theorem addressMap_congr {b' : AddressBook} (h : b'.peers = b.peers) :
    b'.addressMap P = b.addressMap P := by
  unfold addressMap; rw [h]

/-- Rewriting a record without touching its addresses keeps every address map. -/
theorem addressMap_insert_of_addresses {info info' : PeerInfo}
    (hinfo : b.peers.lookup Q = some info) (haddr : info'.addresses = info.addresses) :
    { b with peers := b.peers.insert Q info' }.addressMap P = b.addressMap P := by
  funext k
  by_cases hPQ : P = Q
  · subst hPQ; simp [addressMap, hinfo, haddr]
  · simp [addressMap, AList.lookup_insert_ne hPQ]

theorem addressMap_removeAddress :
    (b.removeAddress Q a).addressMap P =
      if Q = P then applyUpdate (b.addressMap P) (.remove (normalizeAddr a P))
      else b.addressMap P := by
  funext k
  rw [removeAddress_eq]
  unfold erased
  split_ifs with hQP
  · subst hQP
    by_cases hk : k = normalizeAddr a Q
    · subst hk
      split <;> simp [addressMap, applyUpdate, *]
    · split <;> simp [addressMap, applyUpdate, hk, AList.lookup_erase_ne hk, *]
  · split <;> simp [addressMap, AList.lookup_insert_ne (Ne.symm hQP)]

end AddressBook

theorem lookup_storeAddress {info : PeerInfo} {key k : Multiaddr} :
    (info.storeAddress key s).addresses.lookup k =
      if k = key then (info.addresses.lookup k).or (some s) else info.addresses.lookup k := by
  unfold PeerInfo.storeAddress
  by_cases hkey : key ∈ info.addresses
  · obtain ⟨old, hold⟩ := Option.isSome_iff_exists.mp (AList.lookup_isSome.mpr hkey)
    split_ifs with hk
    · subst hk; simp [hold]
    · rfl
  · have hnone := AList.lookup_eq_none.mpr hkey
    split_ifs with hk
    · subst hk; simp [hnone]
    · simp [AList.lookup_insert_ne hk]

theorem World.addressMap_stored {Q : PeerId} :
    (w.stored Q a s).book.addressMap P =
      if Q = P then applyUpdate (w.book.addressMap P) (.add (normalizeAddr a P) s)
      else w.book.addressMap P := by
  funext k
  simp only [AddressBook.addressMap, World.lookup_stored]
  split_ifs with hQP hPQ hPQ
  · subst hQP
    cases hinfo : w.book.peers.lookup P <;>
      simp [AddressBook.addressMap, applyUpdate, lookup_storeAddress, hinfo]
  · exact absurd hQP.symm hPQ
  · exact absurd hPQ.symm hQP
  · rfl

/-! ## The refinement -/

namespace World

/-- The simulation step: after a step that leaves `P` with a record, its address map is the map
before with the step's accepted update applied. -/
theorem addressMap_step (h : w.step op = some w') (hP : P ∈ w'.book.peers) :
    w'.book.addressMap P =
      (addressUpdate w op P).elim (w.book.addressMap P) (applyUpdate (w.book.addressMap P)) := by
  have hsame : w'.book.peers = w.book.peers → addressUpdate w op P = none →
      w'.book.addressMap P =
        (addressUpdate w op P).elim (w.book.addressMap P) (applyUpdate (w.book.addressMap P)) :=
    fun hpeers hnone => by rw [hnone]; exact AddressBook.addressMap_congr hpeers
  have hoffer : ∀ Q a s, op.addressOffer = some (Q, a, s) →
      w'.book.peers = (w.addAddress Q a s).book.peers →
      w'.book.addressMap P =
        (addressUpdate w op P).elim (w.book.addressMap P) (applyUpdate (w.book.addressMap P)) := by
    intro Q a s hop hpeers
    simp only [addressUpdate, hop]
    by_cases hacc : w.book.Accepts Q a
    · rw [show w'.book.addressMap P = (w.stored Q a s).book.addressMap P from
        AddressBook.addressMap_congr (hpeers.trans (by simp [addAddress_book, hacc])),
        addressMap_stored]
      by_cases hQP : Q = P
      · subst hQP; simp [hacc]
      · simp [hQP]
    · rw [if_neg fun h => hacc h.2]
      exact AddressBook.addressMap_congr (hpeers.trans (by simp [addAddress_book, hacc]))
  have hremove : ∀ (b : AddressBook) Q a, b.peers = w.book.peers →
      w'.book.peers = (b.removeAddress Q a).peers →
      addressUpdate w op P = (if Q = P then some (.remove (normalizeAddr a P)) else none) →
      w'.book.addressMap P =
        (addressUpdate w op P).elim (w.book.addressMap P) (applyUpdate (w.book.addressMap P)) := by
    intro b Q a hb hpeers hupdate
    rw [AddressBook.addressMap_congr hpeers, AddressBook.addressMap_removeAddress,
      AddressBook.addressMap_congr hb, hupdate]
    split_ifs <;> rfl
  cases op with
  | addAddress Q a s => cases h; exact hoffer Q a s rfl rfl
  | injectConnectionEstablished Q c e =>
      cases h; exact hoffer _ _ _ rfl (by simp [trackConnection])
  | injectAddressChange Q c old new =>
      cases h; exact hoffer _ _ _ rfl (by simp [trackConnection])
  | removeAddress Q a =>
      cases h; exact hremove w.book Q a rfl rfl (by simp [addressUpdate, Op.addressOffer])
  | injectAddrReachFailure peerId a e =>
      cases peerId with
      | none => cases h; exact hsame rfl (by simp [addressUpdate, Op.addressOffer])
      | some Q =>
          rcases step_injectAddrReachFailure h with ⟨hconn, rfl⟩ | ⟨hconn, hprune, rfl⟩ |
            ⟨-, hprune, rfl⟩
          · exact hsame rfl (by simp [addressUpdate, Op.addressOffer, hconn])
          · exact hremove (w.notify (.dialFailure Q a e)).book Q a rfl rfl
              (by simp [addressUpdate, Op.addressOffer, hconn, hprune])
          · exact hsame rfl (by simp [addressUpdate, Op.addressOffer, hprune])
  | setRtt Q rtt =>
      rcases setRtt_cases h with ⟨-, rfl⟩ | ⟨info, updated, hinfo, rfl⟩
      · exact hsame rfl (by simp [addressUpdate, Op.addressOffer])
      · rw [show addressUpdate w (.setRtt Q rtt) P = none by
          simp [addressUpdate, Op.addressOffer]]
        exact AddressBook.addressMap_insert_of_addresses hinfo rfl
  | setInfo Q identify =>
      cases h
      rw [show addressUpdate w (.setInfo Q identify) P = none by
        simp [addressUpdate, Op.addressOffer]]
      simp only [AddressBook.setInfo_eq, AddressBook.identified]
      split
      · rename_i info hinfo
        exact AddressBook.addressMap_insert_of_addresses hinfo rfl
      · rfl
  | injectDialFailure Q =>
      have hnone : addressUpdate w (.injectDialFailure Q) P = none := by
        simp [addressUpdate, Op.addressOffer]
      rcases step_injectDialFailure h with ⟨-, rfl⟩ | ⟨-, -, -, rfl⟩ | ⟨-, -, -, rfl⟩ |
        ⟨-, -, rfl⟩
      · exact hsame (by simp [AddressBook.dial_eq]) hnone
      · have hPQ : P ≠ Q := by rintro rfl; simp at hP
        rw [hnone]
        funext k
        simp [AddressBook.addressMap, AList.lookup_erase_ne hPQ]
      all_goals exact hsame rfl hnone
  | _ =>
      cases h
      exact hsame
        (by simp [AddressBook.dial_eq, AddressBook.poll_snd, swarmEvents, injectConnectionClosed])
        (by simp [addressUpdate, Op.addressOffer])

/-- Along every run the address map of `peer` is the replay of its log, given that it is so at
the start. -/
theorem addressMap_run {peer : PeerId} :
    ∀ {ops : List Op} {w w' : World} {log : List AddressUpdate},
      w.book.addressMap peer = replay log → w.run ops = some w' →
      w'.book.addressMap peer = replay (w.addressLog peer ops log)
  | [], _, _, _, hlog, h => by cases h; exact hlog
  | op :: ops, w, w', log, hlog, h => by
      obtain ⟨following, hstep, hrest⟩ := Option.bind_eq_some.mp h
      simp only [addressLog, hstep]
      refine addressMap_run ?_ hrest
      split_ifs with hmem
      · rw [addressMap_step hstep hmem, hlog]
        cases addressUpdate w op peer <;> simp [replay_concat]
      · funext k
        simp [AddressBook.addressMap, AList.lookup_eq_none.mpr hmem, replay]

/-- No step changes the source of an entry: it keeps the entry or deletes it. -/
theorem addressMap_step_keeps_source (h : w.step op = some w') {key : Multiaddr}
    {source : AddressSource} (hkey : w.book.addressMap P key = some source) :
    w'.book.addressMap P key = some source ∨ w'.book.addressMap P key = none := by
  by_cases hP : P ∈ w'.book.peers
  · rw [addressMap_step h hP]
    rcases addressUpdate w op P with _ | ⟨key', source'⟩ | key'
    · exact .inl hkey
    · refine .inl ?_
      dsimp only [Option.elim, applyUpdate]
      split_ifs
      · rw [hkey]; rfl
      · exact hkey
    · dsimp only [Option.elim, applyUpdate]
      split_ifs
      · exact .inr rfl
      · exact .inl hkey
  · exact .inr (by simp [AddressBook.addressMap, AList.lookup_eq_none.mpr hP])

end World

/-- For every run from a new book and every peer, the address map of the peer's record is the
replay, on an abstract map keyed by `normalizeAddr a peer`, of the address updates accepted
since the record was last created (the map is empty while there is no record). In particular an
address and the same address with `/p2p/peer` pushed are one key, no step changes the source of
an entry, and `remove_address peer b` deletes the entry of every address that normalizes as `b`
does. -/
theorem address_map_replays_accepted_updates {localPeerId : PeerId}
    {enableLoopback pruneAddresses : Bool} {ops : List Op} {w : World}
    (hrun : (World.new localPeerId enableLoopback pruneAddresses).run ops = some w)
    (peer : PeerId) :
    w.book.addressMap peer =
      replay ((World.new localPeerId enableLoopback pruneAddresses).addressLog peer ops []) ∧
    (∀ a, ¬ EndsWithP2p a → normalizeAddr (a ++ [.p2p peer]) peer = normalizeAddr a peer) ∧
    (∀ op w' key source, w.step op = some w' → w.book.addressMap peer key = some source →
      w'.book.addressMap peer key = some source ∨ w'.book.addressMap peer key = none) ∧
    (∀ a b, normalizeAddr a peer = normalizeAddr b peer →
      (w.book.removeAddress peer b).addressMap peer (normalizeAddr a peer) = none) := by
  refine ⟨World.addressMap_run ?_ hrun, fun a ha => normalizeAddr_push_p2p peer ha,
    fun op w' key source h hkey => World.addressMap_step_keeps_source h hkey,
    fun a b hab => by simp [AddressBook.addressMap_removeAddress, applyUpdate, hab]⟩
  funext k
  simp [AddressBook.addressMap, World.new, AddressBook.new, replay]

/-- The run of `test_dial_basic` up to its dial round: one address given with and without its
`/p2p` suffix, then a second one. -/
theorem address_map_replays_accepted_updates_dial_basic :
    ∃ ops w,
      ops = [.addAddress ⟨1⟩ [.ip4 ⟨1, 1, 1, 1⟩, .tcp 3333] .mdns,
        .addAddress ⟨1⟩ [.ip4 ⟨1, 1, 1, 1⟩, .tcp 3333, .p2p ⟨1⟩] .user,
        .addAddress ⟨1⟩ [.ip4 ⟨2, 2, 2, 2⟩, .tcp 3333] .peer] ∧
      (World.new ⟨0⟩ false true).run ops = some w ∧
      w.book.addressMap ⟨1⟩ = replay ((World.new ⟨0⟩ false true).addressLog ⟨1⟩ ops []) ∧
      (∀ a, ¬ EndsWithP2p a → normalizeAddr (a ++ [.p2p ⟨1⟩]) ⟨1⟩ = normalizeAddr a ⟨1⟩) ∧
      (∀ op w' key source, w.step op = some w' → w.book.addressMap ⟨1⟩ key = some source →
        w'.book.addressMap ⟨1⟩ key = some source ∨ w'.book.addressMap ⟨1⟩ key = none) ∧
      (∀ a b, normalizeAddr a ⟨1⟩ = normalizeAddr b ⟨1⟩ →
        (w.book.removeAddress ⟨1⟩ b).addressMap ⟨1⟩ (normalizeAddr a ⟨1⟩) = none) := by
  refine ⟨_, ?w, rfl, ?run, address_map_replays_accepted_updates ?run ⟨1⟩⟩
  case run => exact rfl

end IpfsEmbed.Net
