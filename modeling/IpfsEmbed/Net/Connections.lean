import IpfsEmbed.Net.StepCases

/-!
# Open connections and the connection tracker

The swarm reports each connection through `inject_connection_established`, then any number of
`inject_address_change`, then `inject_connection_closed`, and a peer may hold several
connections at once. The tracker keeps one address per peer: the remote address of the last
connection established or changed for it, forgotten as soon as any connection of the peer
closes, whichever it is. `trackedEndpoint` reads that endpoint off a run, and
`lookup_connections_run` shows that the tracker holds its normalized remote address.
`swarmRun` runs the book together with the connections a swarm keeps open, refusing callbacks
no swarm delivers; along such a run the tracked endpoint always belongs to an open connection
(`trackedOpen_swarmRun`). The main result is `connected_iff_tracked_connection_open`.
-/

namespace IpfsEmbed.Net

/-- What an operation says about the endpoint tracked for `peer`: a new one, that there is
none, or nothing. -/
def Op.trackUpdate (peer : PeerId) : Op → Option (Option ConnectedPoint)
  | .injectConnectionEstablished P _ endpoint => if P = peer then some (some endpoint) else none
  | .injectAddressChange P _ _ new => if P = peer then some (some new) else none
  | .injectConnectionClosed P _ _ => if P = peer then some none else none
  | _ => none

/-- The endpoint tracked for `peer` after the operations, from the one tracked before. -/
def trackFrom (peer : PeerId) (last : Option ConnectedPoint) (ops : List Op) :
    Option ConnectedPoint :=
  ops.foldl (fun last op => (op.trackUpdate peer).getD last) last

/-- The endpoint of the last connection established or changed for `peer` in a run, unless a
connection of `peer` closed after it. -/
def trackedEndpoint (peer : PeerId) (ops : List Op) : Option ConnectedPoint :=
  trackFrom peer none ops

/-- The address the tracker keeps for a connection of `peer` with this endpoint. -/
def trackedAddress (peer : PeerId) (endpoint : ConnectedPoint) : Multiaddr :=
  normalizeAddr endpoint.getRemoteAddress peer

namespace World

variable {w w' : World} {op : Op}

/-- What one step does to the address tracked for `P`. -/
theorem lookup_connections_step_eq (h : w.step op = some w') (P : PeerId) :
    w'.book.connections.lookup P =
      ((op.trackUpdate P).map (Option.map (trackedAddress P))).getD
        (w.book.connections.lookup P) := by
  cases op with
  | injectConnectionEstablished Q c e | injectAddressChange Q c _ e
  | injectConnectionClosed Q c e =>
      cases h
      by_cases hQP : Q = P
      · subst hQP
        simp [Op.trackUpdate, trackedAddress, trackConnection, injectConnectionClosed,
          addAddress_book]
      · simp [Op.trackUpdate, hQP, trackConnection, injectConnectionClosed, addAddress_book,
          AList.lookup_insert_ne (Ne.symm hQP), AList.lookup_erase_ne (Ne.symm hQP)]
  | _ =>
      obtain hconn | ⟨_, _, _, hop, -⟩ | ⟨_, _, _, _, hop, -⟩ | ⟨_, _, _, hop, -⟩ :=
        step_connections_cases h
      · simp [Op.trackUpdate, hconn]
      all_goals cases hop

/-- Along a run the tracker holds the normalized remote address of the tracked endpoint. -/
theorem lookup_connections_run {P : PeerId} :
    ∀ {ops : List Op} {w w' : World} (last : Option ConnectedPoint),
      w.book.connections.lookup P = last.map (trackedAddress P) → w.run ops = some w' →
      w'.book.connections.lookup P = (trackFrom P last ops).map (trackedAddress P)
  | [], _, _, _, hlast, h => by cases h; exact hlast
  | op :: ops, _, _, last, hlast, h => by
      obtain ⟨following, hstep, hrest⟩ := Option.bind_eq_some.mp h
      refine lookup_connections_run ((op.trackUpdate P).getD last) ?_ hrest
      rw [lookup_connections_step_eq hstep, hlast]
      rcases op.trackUpdate P with _ | _ | _ <;> rfl

end World

/-! ## The connections the swarm keeps open -/

/-- A connection the swarm holds open. -/
structure OpenConnection where
  peer : PeerId
  conn : ConnectionId
  endpoint : ConnectedPoint
  deriving DecidableEq, Repr

/-- Whether connection `conn` of `peer` is open. -/
def isOpen (opens : List OpenConnection) (peer : PeerId) (conn : ConnectionId) : Bool :=
  opens.any fun o => o.peer = peer ∧ o.conn = conn

/-- The open connections after one more operation, or `none` for a callback no swarm delivers:
establishing a connection that is open, or changing or closing one that is not. -/
def swarmStep (opens : List OpenConnection) : Op → Option (List OpenConnection)
  | .injectConnectionEstablished P c endpoint =>
      if isOpen opens P c then none else some (opens ++ [⟨P, c, endpoint⟩])
  | .injectAddressChange P c _ new =>
      if isOpen opens P c then
        some (opens.map fun o => if o.peer = P ∧ o.conn = c then { o with endpoint := new } else o)
      else none
  | .injectConnectionClosed P c _ =>
      if isOpen opens P c then some (opens.filter fun o => ¬ (o.peer = P ∧ o.conn = c)) else none
  | _ => some opens

/-- A run of the book along which the swarm delivers only callbacks it could deliver, with the
connections open at its end. -/
def swarmRun : World × List OpenConnection → List Op → Option (World × List OpenConnection)
  | s, [] => some s
  | (w, opens), op :: ops => do
      let opens ← swarmStep opens op
      let w ← w.step op
      swarmRun (w, opens) ops

theorem swarmRun_run : ∀ {ops : List Op} {s s' : World × List OpenConnection},
    swarmRun s ops = some s' → s.1.run ops = some s'.1
  | [], _, _, h => by cases h; rfl
  | op :: ops, (w, opens), _, h => by
      obtain ⟨opens', -, h⟩ := Option.bind_eq_some.mp h
      obtain ⟨following, hstep, hrest⟩ := Option.bind_eq_some.mp h
      exact Option.bind_eq_some.mpr ⟨following, hstep, swarmRun_run hrest⟩

section Swarm

variable {P : PeerId} {opens opens' : List OpenConnection} {op : Op}
  {last : Option ConnectedPoint}

/-- The tracked endpoint of `P` belongs to an open connection of `P`. -/
def TrackedOpen (P : PeerId) (last : Option ConnectedPoint) (opens : List OpenConnection) :
    Prop :=
  ∀ e, last = some e → ∃ c, ⟨P, c, e⟩ ∈ opens

theorem trackedOpen_swarmStep (hstep : swarmStep opens op = some opens')
    (hlast : TrackedOpen P last opens) : TrackedOpen P ((op.trackUpdate P).getD last) opens' := by
  intro e he
  cases op with
  | injectConnectionEstablished Q c endpoint =>
      simp only [swarmStep] at hstep
      split_ifs at hstep
      cases hstep
      by_cases hQP : Q = P
      · subst hQP
        simp only [Op.trackUpdate, if_true, Option.getD_some, Option.some.injEq] at he
        exact ⟨c, by simp [he]⟩
      · simp only [Op.trackUpdate, hQP, if_false, Option.getD_none] at he
        obtain ⟨c', hc'⟩ := hlast e he
        exact ⟨c', List.mem_append_left _ hc'⟩
  | injectAddressChange Q c old new =>
      simp only [swarmStep] at hstep
      split_ifs at hstep with hopen
      cases hstep
      by_cases hQP : Q = P
      · subst hQP
        simp only [Op.trackUpdate, if_true, Option.getD_some, Option.some.injEq] at he
        obtain ⟨o, ho, hoQ, hoc⟩ : ∃ o ∈ opens, o.peer = Q ∧ o.conn = c := by
          simpa [isOpen] using hopen
        exact ⟨c, List.mem_map.mpr ⟨o, ho, by cases o; simp_all⟩⟩
      · simp only [Op.trackUpdate, hQP, if_false, Option.getD_none] at he
        obtain ⟨c', hc'⟩ := hlast e he
        exact ⟨c', List.mem_map.mpr ⟨_, hc', by simp [Ne.symm hQP]⟩⟩
  | injectConnectionClosed Q c endpoint =>
      simp only [swarmStep] at hstep
      split_ifs at hstep
      cases hstep
      by_cases hQP : Q = P
      · subst hQP
        simp [Op.trackUpdate] at he
      · simp only [Op.trackUpdate, hQP, if_false, Option.getD_none] at he
        obtain ⟨c', hc'⟩ := hlast e he
        exact ⟨c', List.mem_filter.mpr ⟨hc', by simp [Ne.symm hQP]⟩⟩
  | _ => cases hstep; exact hlast e he

theorem trackedOpen_swarmRun : ∀ {ops : List Op} {s s' : World × List OpenConnection}
    {last : Option ConnectedPoint}, TrackedOpen P last s.2 → swarmRun s ops = some s' →
      TrackedOpen P (trackFrom P last ops) s'.2
  | [], _, _, _, hlast, h => by cases h; exact hlast
  | op :: ops, (w, opens), _, _, hlast, h => by
      obtain ⟨opens', hstep, h⟩ := Option.bind_eq_some.mp h
      obtain ⟨following, -, hrest⟩ := Option.bind_eq_some.mp h
      exact @trackedOpen_swarmRun ops (following, opens') _ _
        (trackedOpen_swarmStep hstep hlast) hrest

end Swarm

/-- Along every run from a new book whose connection callbacks a swarm could deliver, and for
every peer `P`: `is_connected(P)` holds exactly when `P` is the local peer or some connection
of `P` was established or changed and none of `P`'s connections closed since; the tracker then
maps `P` to the normalized remote address of that last endpoint, and that connection is still
open. So `is_connected(P)` for a remote peer implies an open connection, but not conversely. -/
theorem connected_iff_tracked_connection_open {localPeerId : PeerId}
    {enableLoopback pruneAddresses : Bool} {ops : List Op} {w : World}
    {opens : List OpenConnection}
    (hrun : swarmRun (World.new localPeerId enableLoopback pruneAddresses, []) ops =
      some (w, opens)) (P : PeerId) :
    (w.book.isConnected P = true ↔ P = localPeerId ∨ (trackedEndpoint P ops).isSome) ∧
    w.book.connections.lookup P = (trackedEndpoint P ops).map (trackedAddress P) ∧
    (∀ e, trackedEndpoint P ops = some e → ∃ c, ⟨P, c, e⟩ ∈ opens) ∧
    (w.book.isConnected P = true → P = localPeerId ∨ ∃ o ∈ opens, o.peer = P) := by
  have hw := swarmRun_run hrun
  have hlookup : w.book.connections.lookup P = (trackedEndpoint P ops).map (trackedAddress P) :=
    World.lookup_connections_run none (by simp [World.new, AddressBook.new]) hw
  have hopen : TrackedOpen P (trackedEndpoint P ops) opens :=
    trackedOpen_swarmRun (fun _ h => by cases h) hrun
  have hlocal : w.book.localPeerId = localPeerId := (World.run_config hw).1
  have hconnected :
      w.book.isConnected P = true ↔ P = localPeerId ∨ (trackedEndpoint P ops).isSome := by
    simp [AddressBook.isConnected, ← AList.lookup_isSome, hlookup, hlocal, or_comm]
  refine ⟨hconnected, hlookup, hopen, fun h => ?_⟩
  rcases hconnected.mp h with hP | hsome
  · exact .inl hP
  · obtain ⟨e, he⟩ := Option.isSome_iff_exists.mp hsome
    obtain ⟨c, hc⟩ := hopen e he
    exact .inr ⟨_, hc, rfl⟩

/-- A connection dialled, its address changed, and a second peer connected. -/
theorem connected_iff_tracked_connection_open_after_change :
    ∃ ops w opens,
      ops = [.injectConnectionEstablished ⟨1⟩ ⟨0⟩ (.dialer [.ip4 ⟨1, 1, 1, 1⟩, .tcp 3333]),
        .injectAddressChange ⟨1⟩ ⟨0⟩ (.dialer [.ip4 ⟨1, 1, 1, 1⟩, .tcp 3333])
          (.dialer [.ip4 ⟨1, 1, 1, 2⟩, .tcp 3333]),
        .injectConnectionEstablished ⟨2⟩ ⟨1⟩
          (.listener [.ip4 ⟨0, 0, 0, 0⟩, .tcp 4001] [.ip4 ⟨2, 2, 2, 2⟩, .tcp 5555])] ∧
      swarmRun (World.new ⟨0⟩ false true, []) ops = some (w, opens) ∧
      (w.book.isConnected ⟨1⟩ = true ↔
        (⟨1⟩ : PeerId) = ⟨0⟩ ∨ (trackedEndpoint ⟨1⟩ ops).isSome) ∧
      w.book.connections.lookup ⟨1⟩ = (trackedEndpoint ⟨1⟩ ops).map (trackedAddress ⟨1⟩) ∧
      (∀ e, trackedEndpoint ⟨1⟩ ops = some e → ∃ c, ⟨⟨1⟩, c, e⟩ ∈ opens) ∧
      (w.book.isConnected ⟨1⟩ = true → (⟨1⟩ : PeerId) = ⟨0⟩ ∨ ∃ o ∈ opens, o.peer = ⟨1⟩) := by
  refine ⟨_, ?w, ?opens, rfl, ?run, connected_iff_tracked_connection_open ?run ⟨1⟩⟩
  case run => exact rfl

/-- Peer 1 holds two connections and the first one closes: the second is still open, yet the
peer is no longer connected. -/
theorem closing_one_connection_forgets_peer :
    ∃ w opens, swarmRun (World.new ⟨0⟩ false true, [])
        [.injectConnectionEstablished ⟨1⟩ ⟨0⟩ (.dialer [.ip4 ⟨1, 1, 1, 1⟩, .tcp 3333]),
          .injectConnectionEstablished ⟨1⟩ ⟨1⟩ (.dialer [.ip4 ⟨1, 1, 1, 1⟩, .tcp 4001]),
          .injectConnectionClosed ⟨1⟩ ⟨0⟩ (.dialer [.ip4 ⟨1, 1, 1, 1⟩, .tcp 3333])] =
        some (w, opens) ∧
      (∃ o ∈ opens, o.peer = ⟨1⟩) ∧ w.book.isConnected ⟨1⟩ = false :=
  ⟨_, _, rfl, by decide⟩

end IpfsEmbed.Net
