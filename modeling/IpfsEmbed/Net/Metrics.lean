import IpfsEmbed.Net.Effects
import Mathlib.Data.BitVec
import Mathlib.Tactic.Ring

/-!
# The gauges and counters

What the `lazy_static!` gauges and counters hold after a run. Each is a 64-bit atomic whose
`inc` and `dec` wrap, so every count below is modulo `2^64`, as arithmetic on `BitVec 64`.
Each metric counts its own callbacks, and no other operation moves it: `LISTENERS`,
`LISTEN_ADDRS`, `EXTERNAL_ADDRS` and `CONNECTED` go up and down with their pairs of callbacks,
and `LISTENER_ERROR` counts `inject_listener_error`. Three depend on the state at the call:
`ADDRESS_REACH_FAILURE` counts the `inject_addr_reach_failure` reports of a peer that is not
connected at the time, `DIAL_FAILURE` the `inject_dial_failure` calls that do not dial the peer
again, and `DISCOVERED` goes down at those of them whose peer has a record. Nothing ever moves
`CONNECTIONS`, and nothing ever increments `DISCOVERED`. `metrics_count_callbacks` is the whole
run, built from `metricsTally_step` with `MetricsTally.cons`.
-/

namespace IpfsEmbed.Net

namespace World

/-- `inject_addr_reach_failure` counts the report: it names a peer that is not connected. -/
def countsReachFailure (w : World) : Op → Bool
  | .injectAddrReachFailure (some peerId) _ _ => !w.book.isConnected peerId
  | _ => false

/-- `inject_dial_failure` counts the failure: it does not dial the peer again. -/
def countsDialFailure (w : World) : Op → Bool
  | .injectDialFailure peerId => !w.book.redials peerId
  | _ => false

/-- `inject_dial_failure` decrements `DISCOVERED`: it does not dial the peer again, and the peer
has a record. -/
def countsUnreachable (w : World) : Op → Bool
  | .injectDialFailure peerId => !w.book.redials peerId && decide (peerId ∈ w.book.peers)
  | _ => false

/-- The gauges and counters at the end of the run `ops` from `w` to `w'`, from those at its start
and the callbacks of the run, modulo `2^64`. -/
structure MetricsTally (w : World) (ops : List Op) (w' : World) : Prop where
  listeners : w'.metrics.listeners = w.metrics.listeners +
    (ops.countP (· matches .injectNewListener _) : BitVec 64) -
      (ops.countP (· matches .injectListenerClosed _) : BitVec 64)
  listenAddrs : w'.metrics.listenAddrs = w.metrics.listenAddrs +
    (ops.countP (· matches .injectNewListenAddr _ _) : BitVec 64) -
      (ops.countP (· matches .injectExpiredListenAddr _ _) : BitVec 64)
  externalAddrs : w'.metrics.externalAddrs = w.metrics.externalAddrs +
    (ops.countP (· matches .injectNewExternalAddr _) : BitVec 64) -
      (ops.countP (· matches .injectExpiredExternalAddr _) : BitVec 64)
  connected : w'.metrics.connected = w.metrics.connected +
    (ops.countP (· matches .injectConnected _) : BitVec 64) -
      (ops.countP (· matches .injectDisconnected _) : BitVec 64)
  discovered : w'.metrics.discovered = w.metrics.discovered -
    (w.countSteps countsUnreachable ops : BitVec 64)
  connections : w'.metrics.connections = w.metrics.connections
  listenerError : w'.metrics.listenerError = w.metrics.listenerError +
    (ops.countP (· matches .injectListenerError _ _) : BitVec 64)
  addressReachFailure : w'.metrics.addressReachFailure = w.metrics.addressReachFailure +
    (w.countSteps countsReachFailure ops : BitVec 64)
  dialFailure : w'.metrics.dialFailure = w.metrics.dialFailure +
    (w.countSteps countsDialFailure ops : BitVec 64)

variable {w w' v : World} {op : Op} {ops : List Op}

/-- One step moves each gauge and counter by its own callback. -/
theorem metricsTally_step (h : w.step op = some w') : MetricsTally w [op] w' := by
  cases op with
  | injectAddrReachFailure peerId a e =>
      cases peerId with
      | none =>
          cases h
          constructor <;> dsimp only [countSteps, step, countsReachFailure, countsDialFailure,
            countsUnreachable, List.countP, List.countP.go, cond, injectAddrReachFailure] <;> simp
      | some P =>
          rcases step_injectAddrReachFailure h with ⟨hc, rfl⟩ | ⟨hc, -, rfl⟩ | ⟨hc, -, rfl⟩ <;>
            constructor <;> dsimp only [countSteps, step, countsReachFailure, countsDialFailure,
              countsUnreachable, List.countP, List.countP.go, cond, notify] <;> simp [hc]
  | injectDialFailure P =>
      rcases step_injectDialFailure h with ⟨hr, rfl⟩ | ⟨hr, hm, -, rfl⟩ | ⟨hr, hm, -, rfl⟩ |
        ⟨hr, hm, rfl⟩
      · constructor <;> dsimp only [countSteps, step, countsReachFailure, countsDialFailure,
          countsUnreachable, List.countP, List.countP.go, cond] <;> simp [hr]
      all_goals
        constructor <;> dsimp only [countSteps, step, countsReachFailure, countsDialFailure,
          countsUnreachable, List.countP, List.countP.go, cond, notify] <;> simp [hr, hm]
  | setRtt P rtt =>
      have hstep := h
      rcases setRtt_cases h with ⟨-, rfl⟩ | ⟨_, _, -, rfl⟩ <;>
        constructor <;> dsimp only [countSteps, countsReachFailure, countsDialFailure,
          countsUnreachable, List.countP, List.countP.go, cond, notify] <;> simp [hstep]
  | _ =>
      cases h
      constructor <;>
        dsimp only [countSteps, step, countsReachFailure, countsDialFailure, countsUnreachable,
          List.countP, List.countP.go, cond, injectConnected, injectDisconnected,
          injectNewListener, injectNewListenAddr, injectExpiredListenAddr, injectListenerError,
          injectListenerClosed, injectNewExternalAddr, injectExpiredExternalAddr,
          injectConnectionEstablished, injectAddressChange, countAndNotify, notify,
          trackConnection, injectConnectionClosed, swarmEvents] <;>
        simp only [addAddress_metrics, dropSwarmEvents_metrics, pollSwarmEvents_metrics,
          Bool.false_eq_true, ↓reduceIte, Nat.zero_add, Nat.add_zero, Nat.cast_zero, Nat.cast_one,
          add_zero, sub_zero]

theorem countP_cons_split (q : Op → Bool) : (op :: ops).countP q = [op].countP q + ops.countP q := by
  simp only [List.countP_cons, List.countP_nil]; omega

/-- A gauge moved by a step and then by a run is moved by the run of both. -/
theorem gauge_cons {a b c : BitVec 64} (up down : Op → Bool)
    (h₁ : b = a + ([op].countP up : BitVec 64) - ([op].countP down : BitVec 64))
    (h₂ : c = b + (ops.countP up : BitVec 64) - (ops.countP down : BitVec 64)) :
    c = a + ((op :: ops).countP up : BitVec 64) - ((op :: ops).countP down : BitVec 64) := by
  rw [@countP_cons_split op ops up, @countP_cons_split op ops down, h₂, h₁]
  push_cast
  ring

/-- A step followed by a run is tallied as the run of both. -/
theorem MetricsTally.cons (hstep : w.step op = some v) (h₁ : MetricsTally w [op] v)
    (h₂ : MetricsTally v ops w') : MetricsTally w (op :: ops) w' := by
  have hcount : ∀ p, w.countSteps p (op :: ops) = w.countSteps p [op] + v.countSteps p ops :=
    fun p => by simp [countSteps, hstep]
  refine ⟨gauge_cons _ _ h₁.1 h₂.1, gauge_cons _ _ h₁.2 h₂.2, gauge_cons _ _ h₁.3 h₂.3,
    gauge_cons _ _ h₁.4 h₂.4, ?_, h₂.6.trans h₁.6, ?_, ?_, ?_⟩
  · rw [h₂.5, h₁.5, hcount]; push_cast; ring
  · rw [h₂.7, h₁.7, @countP_cons_split op ops]; push_cast; ring
  · rw [h₂.8, h₁.8, hcount]; push_cast; ring
  · rw [h₂.9, h₁.9, hcount]; push_cast; ring

end World

/-- For every run from any state, modulo `2^64`: `LISTENERS`, `LISTEN_ADDRS`, `EXTERNAL_ADDRS`
and `CONNECTED` moved by the number of their up callbacks less that of their down callbacks,
`DISCOVERED` down by the number of `inject_dial_failure` calls that did not redial a peer with a
record, `CONNECTIONS` not at all, `LISTENER_ERROR` up by the number of `inject_listener_error`
calls, `ADDRESS_REACH_FAILURE` by the number of `inject_addr_reach_failure(Some(P), ..)` calls
made while `P` was not connected, and `DIAL_FAILURE` by the number of `inject_dial_failure`
calls that did not redial. -/
theorem metrics_count_callbacks : ∀ {ops : List Op} {w w' : World}, w.run ops = some w' →
    World.MetricsTally w ops w'
  | [], w, w', h => by
      cases h
      constructor <;> simp only [List.countP_nil, World.countSteps, Nat.cast_zero, add_zero,
        sub_zero]
  | op :: ops, w, w', h => by
      obtain ⟨v, hstep, hrest⟩ := Option.bind_eq_some.mp h
      exact .cons hstep (World.metricsTally_step hstep) (metrics_count_callbacks hrest)

/-- Two listeners, one closed, and a dial failure of a peer without a record. -/
theorem metrics_count_callbacks_listeners :
    ∃ w, (World.new ⟨0⟩ false true).run [.injectNewListener ⟨1⟩, .injectNewListener ⟨2⟩,
        .injectListenerClosed ⟨1⟩, .injectDialFailure ⟨3⟩] = some w ∧
      World.MetricsTally (World.new ⟨0⟩ false true) [.injectNewListener ⟨1⟩,
        .injectNewListener ⟨2⟩, .injectListenerClosed ⟨1⟩, .injectDialFailure ⟨3⟩] w := by
  refine ⟨?w, ?run, metrics_count_callbacks ?run⟩
  case run => exact rfl

/-- One peer discovered by mDNS and another connected: two records and one tracked
connection, with both gauges still at zero. -/
theorem gauges_miss_record_and_connection :
    ∃ w, (World.new ⟨0⟩ false true).run
        [.addAddress ⟨1⟩ [.ip4 ⟨1, 1, 1, 1⟩, .tcp 3333] .mdns,
          .injectConnectionEstablished ⟨2⟩ ⟨0⟩ (.dialer [.ip4 ⟨2, 2, 2, 2⟩, .tcp 3333])] = some w ∧
      w.metrics.discovered = 0 ∧ w.book.peers.keys.length = 2 ∧
      w.metrics.connections = 0 ∧ w.book.connections.keys.length = 1 :=
  ⟨_, rfl, by decide⟩


end IpfsEmbed.Net
