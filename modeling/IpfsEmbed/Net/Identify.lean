import IpfsEmbed.Net.StepCases

/-!
# The identify fields of a record

`set_info` overwrites the protocol version, the agent version and the protocols of a record, and
does nothing for a peer without one. `lastIdentify` is a history variable: the last
`IdentifyInfo` that `set_info` stored for a peer since its record was last created, which is
at an `add_address` past its guards (`World.mem_peers_step_iff`). It is forgotten whenever a
step leaves the peer without a record. `identify_replays_last` is the whole
run: every record shows the fields of that last `IdentifyInfo`, or the defaults `None`, `None` and
no protocols when there is none. In particular identify information given before the record
exists is dropped, and nothing else of the book ever writes these fields. `identityOf_step` is
the step it rests on.
-/

namespace IpfsEmbed.Net

/-- The fields of a record that `set_info` writes. -/
def PeerInfo.identity (info : PeerInfo) : Option String × Option String × List String :=
  (info.protocolVersion, info.agentVersion, info.protocols)

/-- The fields `set_info` stores from an `IdentifyInfo`. -/
def IdentifyInfo.identity (identify : IdentifyInfo) : Option String × Option String × List String :=
  (some identify.protocolVersion, some identify.agentVersion, identify.protocols)

/-- The identify fields of `PeerInfo::default`. -/
def defaultIdentity : Option String × Option String × List String := (none, none, [])

/-- The `IdentifyInfo` an operation hands to `set_info` for `peer`. -/
def Op.identifyFor (peer : PeerId) : Op → Option IdentifyInfo
  | .setInfo peerId identify => if peerId = peer then some identify else none
  | _ => none

@[simp] theorem PeerInfo.storeAddress_identity {info : PeerInfo} {a : Multiaddr}
    {s : AddressSource} : (info.storeAddress a s).identity = info.identity := by
  unfold storeAddress; split_ifs <;> rfl

namespace World

/-- The identify fields of the record of `peer`; `none` when there is no record. -/
def identityOf (w : World) (peer : PeerId) :
    Option (Option String × Option String × List String) :=
  (w.book.peers.lookup peer).map PeerInfo.identity

/-- The last `IdentifyInfo` of `peer` that `set_info` stored along a run from `w`, starting from
`last` and forgotten at every step after which `peer` has no record. -/
def lastIdentify (peer : PeerId) : World → List Op → Option IdentifyInfo → Option IdentifyInfo
  | _, [], last => last
  | w, op :: ops, last =>
      match w.step op with
      | some w' => w'.lastIdentify peer ops
          (if peer ∈ w'.book.peers then (op.identifyFor peer).or last else none)
      | none => last

variable {w w' : World} {op : Op} {P Q : PeerId}

theorem identityOf_eq_none : w.identityOf P = none ↔ P ∉ w.book.peers := by
  simp [identityOf, AList.lookup_eq_none]

/-! ## What each method does to the identify fields -/

/-- Rewriting a record without touching its identify fields keeps every record's. -/
theorem identity_lookup_insert {peers : AList (fun _ : PeerId => PeerInfo)} {info info' : PeerInfo}
    (hinfo : peers.lookup Q = some info) (hid : info'.identity = info.identity) :
    ((peers.insert Q info').lookup P).map PeerInfo.identity =
      (peers.lookup P).map PeerInfo.identity := by
  by_cases hPQ : P = Q
  · subst hPQ; simp [hinfo, hid]
  · simp [AList.lookup_insert_ne hPQ]

theorem identity_erased {b : AddressBook} {a : Multiaddr} :
    ((b.erased Q a).lookup P).map PeerInfo.identity = (b.peers.lookup P).map PeerInfo.identity := by
  unfold AddressBook.erased
  split
  · rename_i info hinfo
    exact identity_lookup_insert hinfo rfl
  · rfl

/-- `set_info` on a peer with a record stores the new fields in it, and leaves every other
record alone. -/
theorem identity_identified {b : AddressBook} {identify : IdentifyInfo} :
    ((b.identified Q identify).lookup P).map PeerInfo.identity =
      if P = Q ∧ P ∈ b.peers then some identify.identity
      else (b.peers.lookup P).map PeerInfo.identity := by
  unfold AddressBook.identified
  split
  · rename_i info hinfo
    by_cases hPQ : P = Q
    · subst hPQ
      simp [AddressBook.mem_peers_of_lookup hinfo, PeerInfo.identity, IdentifyInfo.identity]
    · simp [hPQ, AList.lookup_insert_ne hPQ]
  · rename_i hnone
    split_ifs with hP
    · obtain ⟨rfl, hP⟩ := hP
      exact absurd hP (AList.lookup_eq_none.mp hnone)
    · rfl

/-- `add_address` past its guards keeps every record's fields, and gives a new record the
defaults. -/
theorem identity_stored {a : Multiaddr} {s : AddressSource} :
    ((w.stored Q a s).book.peers.lookup P).map PeerInfo.identity =
      if P = Q then some ((w.identityOf P).getD defaultIdentity) else w.identityOf P := by
  unfold identityOf
  rw [lookup_stored]
  split_ifs with hPQ
  · subst hPQ
    cases w.book.peers.lookup P with
    | none => simp only [Option.map_some', Option.getD_none, PeerInfo.storeAddress_identity]; rfl
    | some info => simp
  · rfl

/-- What a step does to the identify fields of `P`: keep them, give a record it creates the
defaults, or store the `IdentifyInfo` of a `set_info` of `P`. -/
def IdentityStep (P : PeerId) (w : World) (op : Op) (w' : World) : Prop :=
  (w'.identityOf P = w.identityOf P ∧ op.identifyFor P = none) ∨
  (w.identityOf P = none ∧ w'.identityOf P = some defaultIdentity ∧ op.identifyFor P = none) ∨
  ∃ identify, op.identifyFor P = some identify ∧ w'.identityOf P = some identify.identity

theorem IdentityStep.of_peers (hpeers : w'.book.peers = w.book.peers)
    (hnone : op.identifyFor P = none) : IdentityStep P w op w' :=
  .inl ⟨by rw [identityOf, hpeers, identityOf], hnone⟩

/-- `add_address`, called directly or by a connection callback, is a step of the fields. -/
theorem IdentityStep.of_addAddress {a : Multiaddr} {s : AddressSource}
    (hpeers : w'.book.peers = (w.addAddress Q a s).book.peers) (hnone : op.identifyFor P = none) :
    IdentityStep P w op w' := by
  have hid : w'.identityOf P =
      if w.book.Accepts Q a ∧ P = Q then some ((w.identityOf P).getD defaultIdentity)
      else w.identityOf P := by
    rw [identityOf, hpeers, addAddress_book]
    by_cases hacc : w.book.Accepts Q a
    · simp only [hacc, if_true, true_and, identity_stored]
    · simp [hacc, identityOf]
  unfold IdentityStep
  rw [hid]
  split_ifs
  · cases w.identityOf P
    · exact .inr (.inl ⟨rfl, rfl, hnone⟩)
    · exact .inl ⟨rfl, hnone⟩
  · exact .inl ⟨rfl, hnone⟩

/-- The simulation step: every step that leaves `P` with a record is a step of its identify
fields. -/
theorem identityOf_step (h : w.step op = some w') (hP : P ∈ w'.book.peers) :
    IdentityStep P w op w' := by
  cases op with
  | addAddress Q a s => cases h; exact .of_addAddress rfl rfl
  | injectConnectionEstablished Q c e =>
      cases h
      exact .of_addAddress (Q := Q) (a := normalizeAddr e.getRemoteAddress Q) (s := .peer)
        (by simp [trackConnection]) rfl
  | injectAddressChange Q c old new =>
      cases h
      exact .of_addAddress (Q := Q) (a := normalizeAddr new.getRemoteAddress Q) (s := .peer)
        (by simp [trackConnection]) rfl
  | removeAddress Q a =>
      cases h
      exact .inl ⟨by simp [AddressBook.removeAddress_eq, identity_erased, identityOf], rfl⟩
  | injectAddrReachFailure peerId a e =>
      cases peerId with
      | none => cases h; exact .of_peers rfl rfl
      | some Q =>
          rcases step_injectAddrReachFailure h with ⟨-, rfl⟩ | ⟨-, -, rfl⟩ | ⟨-, -, rfl⟩
          · exact .of_peers rfl rfl
          · exact .inl ⟨by simp [AddressBook.removeAddress_eq, identity_erased, identityOf], rfl⟩
          · exact .of_peers rfl rfl
  | setRtt Q rtt =>
      rcases setRtt_cases h with ⟨-, rfl⟩ | ⟨info, updated, hinfo, rfl⟩
      · exact .of_peers rfl rfl
      · exact .inl ⟨identity_lookup_insert hinfo rfl, rfl⟩
  | setInfo Q identify =>
      cases h
      have hid : (({ w with book := w.book.setInfo Q identify } : World).identityOf P) =
          if P = Q ∧ P ∈ w.book.peers then some identify.identity else w.identityOf P := by
        rw [identityOf, AddressBook.setInfo_eq]; exact identity_identified
      by_cases hQP : Q = P
      · subst hQP
        by_cases hQ : Q ∈ w.book.peers
        · exact .inr (.inr ⟨identify, by simp [Op.identifyFor], by simpa [hQ] using hid⟩)
        · rw [if_neg (fun h => hQ h.2), identityOf_eq_none.mpr hQ, identityOf_eq_none] at hid
          exact absurd hP hid
      · exact .inl ⟨by simpa [Ne.symm hQP] using hid, by simp [Op.identifyFor, hQP]⟩
  | injectDialFailure Q =>
      rcases step_injectDialFailure h with ⟨-, rfl⟩ | ⟨-, -, -, rfl⟩ | ⟨-, -, -, rfl⟩ |
        ⟨-, -, rfl⟩
      · exact .of_peers (by simp [AddressBook.dial_eq]) rfl
      · have hPQ : P ≠ Q := by rintro rfl; simp at hP
        exact .inl ⟨by simp [identityOf, AList.lookup_erase_ne hPQ], rfl⟩
      all_goals exact .of_peers rfl rfl
  | _ =>
      cases h
      exact .of_peers
        (by simp [AddressBook.dial_eq, AddressBook.poll_snd, swarmEvents, injectConnectionClosed])
        rfl

/-! ## The refinement -/

/-- What the last `IdentifyInfo` of `peer` says about its record: no record and nothing
remembered, or the fields of the last `IdentifyInfo`, or the defaults when there is none. -/
def IdentifyLogged (peer : PeerId) (w : World) (last : Option IdentifyInfo) : Prop :=
  (w.identityOf peer).elim (last = none) fun identity =>
    identity = (last.map IdentifyInfo.identity).getD defaultIdentity

/-- The simulation step: the remembered `IdentifyInfo`, replaced by the step's own and forgotten
when the step leaves `P` with no record, still describes the fields. -/
theorem identifyLogged_step (h : w.step op = some w') {last : Option IdentifyInfo}
    (hlast : IdentifyLogged P w last) :
    IdentifyLogged P w'
      (if P ∈ w'.book.peers then (op.identifyFor P).or last else none) := by
  split_ifs with hP
  · rcases identityOf_step h hP with ⟨hw', hnone⟩ | ⟨hw, hw', hnone⟩ | ⟨identify, hfor, hw'⟩
    · simpa [IdentifyLogged, hw', hnone] using hlast
    · simp only [IdentifyLogged, hw, Option.elim] at hlast
      simp [IdentifyLogged, hw', hnone, hlast]
    · simp [IdentifyLogged, hw', hfor]
  · simp [IdentifyLogged, identityOf_eq_none.mpr hP]

/-- Along every run the remembered `IdentifyInfo` of `peer` describes its record, given that it
does at the start. -/
theorem identifyLogged_run : ∀ {ops : List Op} {w w' : World} {last : Option IdentifyInfo},
    IdentifyLogged P w last → w.run ops = some w' →
      IdentifyLogged P w' (w.lastIdentify P ops last)
  | [], _, _, _, hlast, h => by cases h; exact hlast
  | op :: ops, w, w', last, hlast, h => by
      obtain ⟨following, hstep, hrest⟩ := Option.bind_eq_some.mp h
      simp only [lastIdentify, hstep]
      exact identifyLogged_run (identifyLogged_step hstep hlast) hrest

end World

/-- For every run from `AddressBook::new` and every peer `P` with a record at its end: the
record's protocol version, agent version and protocols are those of the last `set_info(P, _)` since
the record was last created, or `None`, `None` and no protocols when there was none. -/
theorem identify_replays_last {localPeerId : PeerId} {enableLoopback pruneAddresses : Bool}
    {ops : List Op} {w : World}
    (h : (World.new localPeerId enableLoopback pruneAddresses).run ops = some w) (P : PeerId)
    {info : PeerInfo} (hinfo : w.book.peers.lookup P = some info) :
    (info.protocolVersion, info.agentVersion, info.protocols) =
      match (World.new localPeerId enableLoopback pruneAddresses).lastIdentify P ops none with
      | some identify => (some identify.protocolVersion, some identify.agentVersion,
          identify.protocols)
      | none => (none, none, []) := by
  have hlogged := World.identifyLogged_run (P := P)
    (show World.IdentifyLogged P (World.new localPeerId enableLoopback pruneAddresses) none from rfl) h
  simp only [World.IdentifyLogged, World.identityOf, hinfo, Option.map_some', Option.elim] at hlogged
  rw [show (info.protocolVersion, info.agentVersion, info.protocols) = info.identity from rfl,
    hlogged]
  cases World.lastIdentify P _ ops none <;> rfl

/-- The identify information of a peer given before its record exists is dropped; the one given
after it is kept. -/
theorem identify_replays_last_early_info :
    ∃ w info, (World.new ⟨0⟩ false true).run
        [.setInfo ⟨1⟩ ⟨"early", "a", []⟩, .addAddress ⟨1⟩ [.ip4 ⟨1, 1, 1, 1⟩] .mdns,
          .setInfo ⟨1⟩ ⟨"ipfs/0.1.0", "b", ["/ipfs/id/1.0.0"]⟩] = some w ∧
      w.book.peers.lookup ⟨1⟩ = some info ∧
      (info.protocolVersion, info.agentVersion, info.protocols) =
        match (World.new ⟨0⟩ false true).lastIdentify ⟨1⟩
            [.setInfo ⟨1⟩ ⟨"early", "a", []⟩, .addAddress ⟨1⟩ [.ip4 ⟨1, 1, 1, 1⟩] .mdns,
              .setInfo ⟨1⟩ ⟨"ipfs/0.1.0", "b", ["/ipfs/id/1.0.0"]⟩] none with
        | some identify => (some identify.protocolVersion, some identify.agentVersion,
            identify.protocols)
        | none => (none, none, []) := by
  refine ⟨?w, ?info, ?run, ?lookup, identify_replays_last ?run ⟨1⟩ ?lookup⟩
  case run => exact rfl
  case lookup => exact rfl

end IpfsEmbed.Net
