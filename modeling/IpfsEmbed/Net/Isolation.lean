import IpfsEmbed.Net.Effects

/-!
# The event bus is isolated from the book

`notify` only writes to the channels of the subscribers, and nothing of the book reads them. So the
event bus cannot influence the book. `BookState` is what the swarm and the callers of the book see
of it, the bus aside: the flags, the records, the connection tracker, the action queue and the
metrics. `step_state_congr` says that the next `BookState` depends on the current one only, and
the bus operations (`swarm_events`, `notify`, and a subscriber dropping or reading its
`SwarmEvents`) leave it alone. `run_state_without_bus` puts the two together over whole runs: the
bus operations can be removed from any run without changing the `BookState` it reaches or whether
it panics.
-/

namespace IpfsEmbed.Net

/-- The book as the swarm and its callers see it, the event bus aside. -/
structure BookState where
  enableLoopback : Bool
  pruneAddresses : Bool
  localPeerId : PeerId
  peers : AList (fun _ : PeerId => PeerInfo)
  connections : AList (fun _ : PeerId => Multiaddr)
  actions : List NetworkBehaviourAction
  metrics : Metrics

/-- An operation on the event bus only: a subscription, a `notify` from outside the book, or a
subscriber dropping or reading its `SwarmEvents`. -/
def Op.onEventBus : Op → Bool
  | .swarmEvents | .notify _ | .dropSwarmEvents _ | .pollSwarmEvents _ => true
  | _ => false

namespace World

/-- The `BookState` of a world. -/
def state (w : World) : BookState :=
  ⟨w.book.enableLoopback, w.book.pruneAddresses, w.book.localPeerId, w.book.peers,
    w.book.connections, w.book.actions, w.metrics⟩

variable {w w₁ w₂ : World} {op : Op}

/-- What a step does to the `BookState` depends on the `BookState` only: two worlds that differ
in their senders, channels and journal take every step to the same `BookState`, and one panics
when the other does. -/
theorem step_state_congr (h : w₁.state = w₂.state) :
    (w₁.step op).map state = (w₂.step op).map state := by
  obtain ⟨⟨el, pa, lp, peers, conns, es₁, acts⟩, m, ch₁, j₁⟩ := w₁
  obtain ⟨⟨el', pa', lp', peers', conns', es₂, acts'⟩, m', ch₂, j₂⟩ := w₂
  simp only [state, BookState.mk.injEq] at h
  obtain ⟨rfl, rfl, rfl, rfl, rfl, rfl, rfl⟩ := h
  cases op with
  | setRtt P rtt =>
      simp only [step, setRtt]
      cases peers.lookup P with
      | none => rfl
      | some info => dsimp only; cases updateRtt info.rtt rtt <;> rfl
  | injectAddrReachFailure peerId a e =>
      cases peerId with
      | none => rfl
      | some P =>
          simp only [step, injectAddrReachFailure, notify_book, AddressBook.isConnected,
            AddressBook.removeAddress_eq, AddressBook.erased, Option.map_some']
          split_ifs <;> rfl
  | injectDialFailure P =>
      simp only [step, injectDialFailure, AddressBook.redials, AddressBook.dial_eq, notify_book,
        Option.map_some']
      split_ifs <;> rfl
  | _ =>
      simp [step, state, AddressBook.dial_eq, AddressBook.removeAddress_eq, AddressBook.erased,
        AddressBook.setInfo_eq, AddressBook.identified, AddressBook.poll_snd, AddressBook.Accepts,
        addAddress_book, stored, trackConnection, injectConnectionClosed, swarmEvents]

/-- A bus operation never panics and leaves the `BookState` as it is. -/
theorem step_state_onEventBus (hop : op.onEventBus = true) :
    (w.step op).map state = some w.state := by
  cases op <;> simp [Op.onEventBus] at hop <;> simp [step, state, swarmEvents]

end World

/-- For every run from any state, and every state with the same `BookState`: removing every
operation on the event bus from the run (subscriptions, `notify` from outside, and the
subscribers dropping or reading their `SwarmEvents`) and starting from the other state reaches
the same flags, records, connection tracker, action queue and metrics, and panics exactly when
the run does. -/
theorem run_state_without_bus : ∀ (ops : List Op) {w₁ w₂ : World}, w₁.state = w₂.state →
    (w₁.run ops).map World.state =
      (w₂.run (ops.filter fun op => !op.onEventBus)).map World.state
  | [], _, _, h => by simp [h]
  | op :: ops, w₁, w₂, h => by
      by_cases hop : op.onEventBus = true
      · obtain ⟨v, hv, hstate⟩ :=
          Option.map_eq_some'.mp (World.step_state_onEventBus (w := w₁) hop)
        simp only [List.filter_cons, hop, Bool.not_true, World.run_cons, hv, Option.some_bind]
        exact run_state_without_bus ops (hstate.trans h)
      · have hcongr : (w₁.step op).map World.state = (w₂.step op).map World.state :=
          World.step_state_congr h
        simp only [List.filter_cons, hop, Bool.not_false, if_true, World.run_cons]
        cases h₁ : w₁.step op <;> cases h₂ : w₂.step op <;> simp only [h₁, h₂, Option.map_none',
          Option.map_some', reduceCtorEq, Option.some.injEq] at hcongr
        · rfl
        · exact run_state_without_bus ops hcongr

/-- A subscriber that subscribes, reads one event and drops its stream around a dial leaves the
book as the dial alone does. -/
theorem run_state_without_bus_subscriber :
    (World.new ⟨0⟩ false true).state = (World.new ⟨0⟩ false true).state ∧
      ((World.new ⟨0⟩ false true).run [.swarmEvents, .addAddress ⟨1⟩ [.ip4 ⟨1, 1, 1, 1⟩] .mdns,
          .pollSwarmEvents 0, .dial ⟨1⟩, .dropSwarmEvents 0]).map World.state =
        ((World.new ⟨0⟩ false true).run ([.swarmEvents, .addAddress ⟨1⟩ [.ip4 ⟨1, 1, 1, 1⟩] .mdns,
          .pollSwarmEvents 0, .dial ⟨1⟩, .dropSwarmEvents 0].filter
            fun op => !op.onEventBus)).map World.state :=
  ⟨rfl, run_state_without_bus _ rfl⟩

end IpfsEmbed.Net
