import IpfsEmbed.Net.Effects

/-!
# What one step can do

One inversion lemma for each part of the book that the invariants read. `step_peers_cases`
says everything a step can do to the records: nothing, store an address past the guards of
`add_address`, rewrite one record while keeping its addresses or erasing one of them, or
delete a record in `inject_dial_failure`. `step_connections_cases` and `step_actions_cases` do
the same for the connection tracker and the action queue. The invariant proofs are case
analyses over these lemmas. `mem_peers_step_iff` says where records come from: a step creates
the record of a peer exactly when it hands `add_address` an address for it that passes the
guards, which is what the history variables of the later modules mean by the creation of a
record.
-/

namespace IpfsEmbed.Net

/-- The peer, address and source an operation hands to `add_address`: its own arguments, or,
for a connection callback, the remote address normalized with the peer's id. -/
def Op.addressOffer : Op → Option (PeerId × Multiaddr × AddressSource)
  | .addAddress peer address source => some (peer, address, source)
  | .injectConnectionEstablished peerId _ endpoint =>
      some (peerId, normalizeAddr endpoint.getRemoteAddress peerId, .peer)
  | .injectAddressChange peerId _ _ new =>
      some (peerId, normalizeAddr new.getRemoteAddress peerId, .peer)
  | _ => none

/-- The operation has `remove_address` erase `address` from the record of `peer`: a direct
call, or the pruning of `inject_addr_reach_failure` on a peer that is not connected. -/
def Op.Prunes (w : World) (peer : PeerId) (address : Multiaddr) : Op → Prop
  | .removeAddress p a => p = peer ∧ a = address
  | .injectAddrReachFailure (some p) a _ =>
      p = peer ∧ a = address ∧ w.book.isConnected peer = false ∧ w.book.pruneAddresses = true
  | _ => False

/-- Past its guards, `add_address` leaves the normalized address in the peer's record. -/
theorem normalizeAddr_mem_addAddress {w : World} {P : PeerId} {a : Multiaddr} {s : AddressSource}
    (hacc : w.book.Accepts P a) :
    normalizeAddr a P ∈ (w.addAddress P a s).book.addressesOfPeer P := by
  refine AddressBook.mem_addressesOfPeer.mpr
    ⟨((w.book.peers.lookup P).getD {}).storeAddress (normalizeAddr a P) s, ?_,
      World.mem_storeAddress.mpr (.inl rfl)⟩
  simp [World.addAddress_book, hacc, World.lookup_stored]

namespace World

variable {w w' : World} {op : Op}

/-- What one step can do to the records. -/
theorem step_peers_cases (h : w.step op = some w') :
    w'.book.peers = w.book.peers ∨
    (∃ P a s, op.addressOffer = some (P, a, s) ∧ w.book.Accepts P a ∧
      w'.book.peers = (w.stored P a s).book.peers) ∨
    (∃ P info info', w.book.peers.lookup P = some info ∧
      w'.book.peers = w.book.peers.insert P info' ∧
      (info'.addresses = info.addresses ∨
        ∃ a, op.Prunes w P a ∧ info'.addresses = info.addresses.erase (normalizeAddr a P))) ∨
    (∃ P, op = .injectDialFailure P ∧ P ∈ w.book.peers ∧ w.book.pruneAddresses = true ∧
      w.book.redials P = false ∧ w'.book.peers = w.book.peers.erase P) := by
  have hoffer : ∀ P a s, op.addressOffer = some (P, a, s) →
      w'.book.peers = (w.addAddress P a s).book.peers →
      w'.book.peers = w.book.peers ∨ ∃ P a s, op.addressOffer = some (P, a, s) ∧
        w.book.Accepts P a ∧ w'.book.peers = (w.stored P a s).book.peers := by
    intro P a s hop hpeers
    by_cases hacc : w.book.Accepts P a
    · exact .inr ⟨P, a, s, hop, hacc, by simpa [addAddress_book, hacc] using hpeers⟩
    · exact .inl (by simpa [addAddress_book, hacc] using hpeers)
  have herased : ∀ (b : AddressBook) P a, b.peers = w.book.peers → op.Prunes w P a →
      w'.book.peers = (b.removeAddress P a).peers →
      w'.book.peers = w.book.peers ∨ ∃ P info info', w.book.peers.lookup P = some info ∧
        w'.book.peers = w.book.peers.insert P info' ∧ (info'.addresses = info.addresses ∨
          ∃ a, op.Prunes w P a ∧
            info'.addresses = info.addresses.erase (normalizeAddr a P)) := by
    intro b P a hb hop hpeers
    rw [AddressBook.removeAddress_eq] at hpeers
    unfold AddressBook.erased at hpeers
    rw [hb] at hpeers
    split at hpeers
    · rename_i info hinfo
      exact .inr ⟨P, info, _, hinfo, hpeers, .inr ⟨a, hop, rfl⟩⟩
    · exact .inl hpeers
  cases op with
  | addAddress P a s =>
      cases h
      exact (hoffer P a s rfl rfl).imp_right .inl
  | injectConnectionEstablished P conn endpoint =>
      cases h
      exact (hoffer _ _ _ rfl (by simp [trackConnection])).imp_right .inl
  | injectAddressChange P conn old new =>
      cases h
      exact (hoffer _ _ _ rfl (by simp [trackConnection])).imp_right .inl
  | removeAddress P a =>
      cases h
      exact (herased _ P a rfl ⟨rfl, rfl⟩ rfl).imp_right fun h => .inr (.inl h)
  | injectAddrReachFailure peerId a e =>
      cases peerId with
      | none => cases h; exact .inl rfl
      | some P =>
          rcases step_injectAddrReachFailure h with ⟨-, rfl⟩ | ⟨hconn, hprune, rfl⟩ | ⟨-, -, rfl⟩
          · exact .inl rfl
          · exact (herased (w.notify (.dialFailure P a e)).book P a rfl
              ⟨rfl, rfl, hconn, hprune⟩ rfl).imp_right fun h => .inr (.inl h)
          · exact .inl rfl
  | setRtt P rtt =>
      rcases setRtt_cases h with ⟨-, rfl⟩ | ⟨info, updated, hinfo, rfl⟩
      · exact .inl rfl
      · exact .inr (.inr (.inl ⟨P, info, _, hinfo, rfl, .inl rfl⟩))
  | setInfo P identify =>
      cases h
      simp only [AddressBook.setInfo_eq, AddressBook.identified]
      split
      · rename_i info hinfo
        exact .inr (.inr (.inl ⟨P, info, _, hinfo, rfl, .inl rfl⟩))
      · exact .inl rfl
  | injectDialFailure P =>
      rcases step_injectDialFailure h with ⟨-, rfl⟩ | ⟨hredial, hmem, hprune, rfl⟩ |
        ⟨-, -, -, rfl⟩ | ⟨-, -, rfl⟩
      · exact .inl (by simp [AddressBook.dial_eq])
      · exact .inr (.inr (.inr ⟨P, rfl, hmem, hprune, hredial, rfl⟩))
      all_goals exact .inl rfl
  | _ =>
      cases h
      exact .inl (by simp [AddressBook.dial_eq, AddressBook.poll_snd, swarmEvents,
        injectConnectionClosed])

/-- What one step can do to the connection tracker: track the normalized remote address of an
established or changed connection, or forget the peer when one of its connections closes. -/
theorem step_connections_cases (h : w.step op = some w') :
    w'.book.connections = w.book.connections ∨
    (∃ P conn endpoint, op = .injectConnectionEstablished P conn endpoint ∧
      w'.book.connections =
        w.book.connections.insert P (normalizeAddr endpoint.getRemoteAddress P)) ∨
    (∃ P conn old new, op = .injectAddressChange P conn old new ∧
      w'.book.connections = w.book.connections.insert P (normalizeAddr new.getRemoteAddress P)) ∨
    (∃ P conn endpoint, op = .injectConnectionClosed P conn endpoint ∧
      w'.book.connections = w.book.connections.erase P) := by
  cases op with
  | injectConnectionEstablished P conn endpoint =>
      cases h
      exact .inr (.inl ⟨P, conn, endpoint, rfl, by simp [trackConnection, addAddress_book]⟩)
  | injectAddressChange P conn old new =>
      cases h
      exact .inr (.inr (.inl ⟨P, conn, old, new, rfl,
        by simp [trackConnection, addAddress_book]⟩))
  | injectConnectionClosed P conn endpoint =>
      cases h
      exact .inr (.inr (.inr ⟨P, conn, endpoint, rfl, by simp [injectConnectionClosed]⟩))
  | setRtt P rtt =>
      rcases setRtt_cases h with ⟨-, rfl⟩ | ⟨info, updated, -, rfl⟩ <;> exact .inl rfl
  | _ =>
      cases h
      exact .inl (by simp [AddressBook.dial_eq, AddressBook.removeAddress_eq,
        AddressBook.setInfo_eq, AddressBook.poll_snd, addAddress_book, swarmEvents])

/-- What one step can do to the action queue: hand out its head in `poll`, or queue a dial of a
peer other than the local one, asked for by `dial` or by the redial of `inject_dial_failure`. -/
theorem step_actions_cases (h : w.step op = some w') :
    w'.book.actions = w.book.actions ∨
    (op = .poll ∧ w'.book.actions = w.book.actions.tail) ∨
    ∃ P, P ≠ w.book.localPeerId ∧
      (op = .dial P ∨ (op = .injectDialFailure P ∧ w.book.redials P = true)) ∧
      w'.book.actions = w.book.actions ++ [.dialPeer P .disconnected] := by
  have hdial : ∀ P, (op = .dial P ∨ (op = .injectDialFailure P ∧ w.book.redials P = true)) →
      w'.book.actions = (w.book.dial P).actions →
      w'.book.actions = w.book.actions ∨ ∃ P, P ≠ w.book.localPeerId ∧
        (op = .dial P ∨ (op = .injectDialFailure P ∧ w.book.redials P = true)) ∧
        w'.book.actions = w.book.actions ++ [.dialPeer P .disconnected] := by
    intro P hop hactions
    rw [AddressBook.dial_eq] at hactions
    by_cases hlocal : P = w.book.localPeerId
    · exact .inl (by simpa [hlocal] using hactions)
    · exact .inr ⟨P, hlocal, hop, by simpa [hlocal] using hactions⟩
  cases op with
  | dial P =>
      cases h
      exact (hdial P (.inl rfl) rfl).imp_right .inr
  | poll =>
      cases h
      exact .inr (.inl ⟨rfl, by simp [step, AddressBook.poll_snd]⟩)
  | injectDialFailure P =>
      rcases step_injectDialFailure h with ⟨hredial, rfl⟩ | ⟨-, -, -, rfl⟩ | ⟨-, -, -, rfl⟩ |
        ⟨-, -, rfl⟩
      · exact (hdial P (.inr ⟨rfl, hredial⟩) rfl).imp_right .inr
      all_goals exact .inl rfl
  | setRtt P rtt =>
      rcases setRtt_cases h with ⟨-, rfl⟩ | ⟨info, updated, -, rfl⟩ <;> exact .inl rfl
  | _ =>
      cases h
      exact .inl (by simp [AddressBook.removeAddress_eq, AddressBook.setInfo_eq, addAddress_book,
        swarmEvents, trackConnection, injectConnectionClosed])

/-- A step adds an address to a record only by storing, normalized, an address offered to
`add_address` for that peer past its guards. -/
theorem mem_addressesOfPeer_step (h : w.step op = some w') {P : PeerId} {a : Multiaddr}
    (ha : a ∈ w'.book.addressesOfPeer P) :
    a ∈ w.book.addressesOfPeer P ∨
      ∃ a₀ s, op.addressOffer = some (P, a₀, s) ∧ w.book.Accepts P a₀ ∧
        a = normalizeAddr a₀ P := by
  obtain ⟨info, hinfo, ha⟩ := AddressBook.mem_addressesOfPeer.mp ha
  have hold : ∀ info, w.book.peers.lookup P = some info → a ∈ info.addresses →
      a ∈ w.book.addressesOfPeer P :=
    fun info h ha => AddressBook.mem_addressesOfPeer.mpr ⟨info, h, ha⟩
  rcases step_peers_cases h with hpeers | ⟨Q, a₀, s, hop, hacc, hpeers⟩ |
      ⟨Q, old, new, hold', hpeers, hnew⟩ | ⟨Q, -, -, -, -, hpeers⟩
  · exact .inl (hold info (hpeers ▸ hinfo) ha)
  · rw [hpeers, lookup_stored] at hinfo
    split_ifs at hinfo with hPQ
    · subst hPQ
      cases hinfo
      rcases mem_storeAddress.mp ha with rfl | ha
      · exact .inr ⟨a₀, s, hop, hacc, rfl⟩
      · cases hlook : w.book.peers.lookup P with
        | none => simp [hlook] at ha
        | some old => exact .inl (hold old hlook (by simpa [hlook] using ha))
    · exact .inl (hold info hinfo ha)
  · rw [hpeers] at hinfo
    by_cases hPQ : P = Q
    · subst hPQ
      simp only [AList.lookup_insert, Option.some.injEq] at hinfo
      subst hinfo
      refine .inl (hold old hold' ?_)
      rcases hnew with hsame | ⟨_, -, herase⟩
      · exact hsame ▸ ha
      · exact (AList.mem_erase.mp (herase ▸ ha)).2
    · exact .inl (hold info (by simpa [AList.lookup_insert_ne hPQ] using hinfo) ha)
  · rw [hpeers] at hinfo
    by_cases hPQ : P = Q
    · subst hPQ
      simp at hinfo
    · exact .inl (hold info (by simpa [AList.lookup_erase_ne hPQ] using hinfo) ha)

/-- A step changes the address tracked for a peer only to the normalized remote address of a
connection callback, which is also the address that callback offers to `add_address`. -/
theorem lookup_connections_step (h : w.step op = some w') {P : PeerId} {a : Multiaddr}
    (ha : w'.book.connections.lookup P = some a) :
    w.book.connections.lookup P = some a ∨
      ∃ a₀ s, op.addressOffer = some (P, a₀, s) ∧ a = normalizeAddr a₀ P := by
  rcases step_connections_cases h with hconn | ⟨Q, c, e, rfl, hconn⟩ |
      ⟨Q, c, old, new, rfl, hconn⟩ | ⟨Q, c, e, rfl, hconn⟩
  · exact .inl (hconn ▸ ha)
  · by_cases hPQ : P = Q
    · subst hPQ
      simp only [hconn, AList.lookup_insert, Option.some.injEq] at ha
      exact .inr ⟨_, _, rfl, by simp [← ha]⟩
    · exact .inl (by simpa [hconn, AList.lookup_insert_ne hPQ] using ha)
  · by_cases hPQ : P = Q
    · subst hPQ
      simp only [hconn, AList.lookup_insert, Option.some.injEq] at ha
      exact .inr ⟨_, _, rfl, by simp [← ha]⟩
    · exact .inl (by simpa [hconn, AList.lookup_insert_ne hPQ] using ha)
  · by_cases hPQ : P = Q
    · subst hPQ
      simp [hconn] at ha
    · exact .inl (by simpa [hconn, AList.lookup_erase_ne hPQ] using ha)

/-! ## Where records come from -/

variable {P : PeerId} {a : Multiaddr} {s : AddressSource}

/-- An address offered to `add_address`, directly or by a connection callback, past its guards
ends up, normalized, in the record of its peer. -/
theorem normalizeAddr_mem_step_of_addressOffer (h : w.step op = some w')
    (hop : op.addressOffer = some (P, a, s)) (hacc : w.book.Accepts P a) :
    normalizeAddr a P ∈ w'.book.addressesOfPeer P := by
  cases op <;> simp only [Op.addressOffer, Option.some.injEq, Prod.mk.injEq, reduceCtorEq] at hop
  all_goals
    obtain ⟨rfl, rfl, rfl⟩ := hop
    cases h
    simpa [trackConnection, AddressBook.addressesOfPeer] using normalizeAddr_mem_addAddress hacc

theorem mem_peers_of_addressOffer (h : w.step op = some w')
    (hop : op.addressOffer = some (P, a, s)) (hacc : w.book.Accepts P a) : P ∈ w'.book.peers :=
  AddressBook.mem_peers_of_mem_addressesOfPeer (normalizeAddr_mem_step_of_addressOffer h hop hacc)

/-- A step creates the record of a peer exactly when it hands `add_address`, directly or from a
connection callback, an address for that peer that passes the guards of `add_address`: the
`or_default` entry of `add_address` is the only code path that makes a record. -/
theorem mem_peers_step_iff (h : w.step op = some w') (hP : P ∉ w.book.peers) :
    P ∈ w'.book.peers ↔ ∃ a s, op.addressOffer = some (P, a, s) ∧ w.book.Accepts P a := by
  refine ⟨fun hP' => ?_, fun ⟨a, s, hop, hacc⟩ => mem_peers_of_addressOffer h hop hacc⟩
  rcases step_peers_cases h with hpeers | ⟨Q, a, s, hop, hacc, hpeers⟩ |
      ⟨Q, info, info', hinfo, hpeers, -⟩ | ⟨Q, -, -, -, -, hpeers⟩
  · exact absurd (hpeers ▸ hP') hP
  · by_cases hPQ : P = Q
    · exact hPQ ▸ ⟨a, s, hop, hacc⟩
    · exact absurd (by simpa [hpeers, stored, hPQ] using hP') hP
  · rw [hpeers, AList.mem_insert] at hP'
    rcases hP' with rfl | hP'
    · exact absurd (AddressBook.mem_peers_of_lookup hinfo) hP
    · exact absurd hP' hP
  · rw [hpeers, AList.mem_erase] at hP'
    exact absurd hP'.2 hP

end World

end IpfsEmbed.Net
