import IpfsEmbed.Net.Effects

/-!
# Subscribers of the event stream

`swarm_events` hands out the receiving end of a fresh channel and keeps its sender in
`event_stream`; `notify` sends each event on every kept sender and forgets those whose receiver
was dropped. `retainSend_spec` says what the `retain` loop of `notify` does to a list of senders
without duplicates. `Subscribers` is the invariant of the channels in every reachable state:
the senders are some of the channels in subscription order, among them every live one, and each
live subscriber has been handed, consumed or still queued, exactly the journal since it
subscribed. The main result is `live_subscribers_receive_journal`.
-/

namespace IpfsEmbed.Net

/-- Whether the receiver of channel `i` is still alive. -/
def receiverAlive (channels : List Channel) (i : Nat) : Bool :=
  match channels[i]? with
  | some channel => channel.receiverAlive
  | none => false

/-- Channel `i` once `notify` has sent `event` to it, if its sender is among `senders`. -/
def Channel.deliver (event : Event) (senders : List Nat) (i : Nat) (channel : Channel) :
    Channel :=
  if i ∈ senders ∧ channel.receiverAlive = true then
    { channel with queue := channel.queue ++ [event] }
  else channel

@[simp] theorem Channel.deliver_receiverAlive {event : Event} {senders : List Nat} {i : Nat}
    {channel : Channel} :
    (channel.deliver event senders i).receiverAlive = channel.receiverAlive := by
  unfold Channel.deliver; split_ifs <;> rfl

@[simp] theorem Channel.deliver_since {event : Event} {senders : List Nat} {i : Nat}
    {channel : Channel} : (channel.deliver event senders i).since = channel.since := by
  unfold Channel.deliver; split_ifs <;> rfl

section Retain

variable {channels : List Channel} {tx : Nat} {event : Event}

/-- Delivering to one sender and then to others delivers to all of them. -/
theorem Channel.deliver_cons {senders : List Nat} {i : Nat} (htx : tx ∉ senders)
    (c : Channel) :
    (c.deliver event [tx] i).deliver event senders i = c.deliver event (tx :: senders) i := by
  by_cases hi : i = tx
  · subst hi; unfold Channel.deliver; split_ifs <;> simp_all
  · simp [Channel.deliver, hi]

/-- `unbounded_send` on sender `tx` delivers the event to channel `tx` and to no other. -/
theorem unboundedSend_getElem? (i : Nat) :
    (unboundedSend channels tx event).2[i]? = channels[i]?.map (Channel.deliver event [tx] i) := by
  unfold unboundedSend
  by_cases hi : i = tx
  · subst hi
    cases hc : channels[i]? with
    | none => simp [hc]
    | some c =>
        obtain ⟨hlt, hget⟩ := List.getElem?_eq_some_iff.mp hc
        by_cases halive : c.receiverAlive = true <;> simp [hc, halive, hlt, hget, Channel.deliver]
  · have hid : Channel.deliver event [tx] i = fun c => c := funext fun c => by
      simp [Channel.deliver, hi]
    rw [hid, Option.map_id']
    split
    · split
      · exact List.getElem?_set_ne (Ne.symm hi)
      · rfl
    · rfl

theorem unboundedSend_length : (unboundedSend channels tx event).2.length = channels.length := by
  unfold unboundedSend; split <;> (try split) <;> simp

/-- The send succeeds exactly when the receiver of `tx` is alive. -/
theorem unboundedSend_fst : (unboundedSend channels tx event).1 = receiverAlive channels tx := by
  unfold unboundedSend receiverAlive; split <;> (try split) <;> simp_all

/-- Sending leaves every receiver as it was. -/
theorem receiverAlive_unboundedSend :
    receiverAlive (unboundedSend channels tx event).2 = receiverAlive channels := by
  funext i
  unfold receiverAlive
  rw [unboundedSend_getElem?]
  cases channels[i]? <;> simp

/-- The `retain` loop of `notify` over senders without duplicates keeps the senders whose
receiver is alive, queues the event on their channels, and leaves the other channels alone. -/
theorem retainSend_spec (event : Event) :
    ∀ {senders : List Nat} {channels : List Channel}, senders.Nodup →
      (retainSend event senders channels).1 = senders.filter (receiverAlive channels) ∧
      (retainSend event senders channels).2.length = channels.length ∧
      ∀ i, (retainSend event senders channels).2[i]? =
        channels[i]?.map (Channel.deliver event senders i)
  | [], channels, _ =>
      ⟨rfl, rfl, fun i => show channels[i]? = _ by cases channels[i]? <;> simp [Channel.deliver]⟩
  | tx :: rest, channels, hnd => by
      obtain ⟨htx, hrest⟩ := List.nodup_cons.mp hnd
      obtain ⟨h1, h2, h3⟩ := @retainSend_spec event rest (unboundedSend channels tx event).2 hrest
      refine ⟨?_, h2.trans unboundedSend_length, fun i => ?_⟩
      · simp only [retainSend, h1, receiverAlive_unboundedSend, unboundedSend_fst,
          List.filter_cons]
      · simp only [retainSend, h3, unboundedSend_getElem?]
        cases channels[i]? <;> simp [Channel.deliver_cons htx]

end Retain

/-! ## The event bus -/

/-- What the subscribers see of a world: the senders, the channels and the journal. -/
structure Bus where
  eventStream : List Nat
  channels : List Channel
  journal : List Event

/-- The event bus of a world. -/
def World.bus (w : World) : Bus := ⟨w.book.eventStream, w.channels, w.journal⟩

/-- `notify` as the subscribers see it. -/
def Bus.notify (b : Bus) (event : Event) : Bus :=
  let sent := retainSend event b.eventStream b.channels
  ⟨sent.1, sent.2, b.journal ++ [event]⟩

/-- Several `notify` calls in a row. -/
def Bus.notifyAll (b : Bus) (events : List Event) : Bus :=
  events.foldl Bus.notify b

@[simp] theorem World.bus_notify (w : World) (event : Event) :
    (w.notify event).bus = w.bus.notify event := rfl

/-- The senders are some of the channels in subscription order, among them every live one, and
each live subscriber has been handed exactly the journal since it subscribed. -/
structure Subscribers (b : Bus) : Prop where
  senders : ∃ held : Nat → Bool, b.eventStream = (List.range b.channels.length).filter held ∧
    ∀ i, receiverAlive b.channels i = true → held i = true
  delivered : ∀ (i : Nat) (c : Channel), b.channels[i]? = some c → c.receiverAlive = true →
    c.received ++ c.queue = b.journal.drop c.since
  since_le : ∀ (i : Nat) (c : Channel), b.channels[i]? = some c → c.since ≤ b.journal.length

namespace Subscribers

variable {b : Bus} {event : Event}

theorem nodup (hb : Subscribers b) : b.eventStream.Nodup := by
  obtain ⟨held, hheld, -⟩ := hb.senders
  exact hheld ▸ (List.nodup_range _).filter _

/-- `notify` keeps exactly the senders whose receiver is alive. -/
theorem notify_eventStream (hb : Subscribers b) :
    (b.notify event).eventStream =
      (List.range b.channels.length).filter (receiverAlive b.channels) := by
  obtain ⟨held, hheld, halive⟩ := hb.senders
  rw [Bus.notify, (retainSend_spec event hb.nodup).1, hheld, List.filter_filter]
  exact List.filter_congr fun i _ => by
    cases h : receiverAlive b.channels i <;> simp [halive i, h]

theorem notify_length (hb : Subscribers b) :
    (b.notify event).channels.length = b.channels.length :=
  (retainSend_spec event hb.nodup).2.1

theorem notify_channels (hb : Subscribers b) (i : Nat) :
    (b.notify event).channels[i]? = b.channels[i]?.map (Channel.deliver event b.eventStream i) :=
  (retainSend_spec event hb.nodup).2.2 i

/-- A live channel holds the sender `notify` sends on. -/
theorem mem_eventStream (hb : Subscribers b) {i : Nat} {c : Channel}
    (hc : b.channels[i]? = some c) (halive : c.receiverAlive = true) : i ∈ b.eventStream := by
  obtain ⟨held, hheld, hheld_alive⟩ := hb.senders
  have hlt : i < b.channels.length := (List.getElem?_eq_some_iff.mp hc).1
  rw [hheld, List.mem_filter, List.mem_range]
  exact ⟨hlt, hheld_alive i (by simp [receiverAlive, hc, halive])⟩

theorem notify (hb : Subscribers b) : Subscribers (b.notify event) where
  senders := ⟨receiverAlive b.channels, by
      rw [hb.notify_eventStream, hb.notify_length],
    fun i h => by
      cases hc : b.channels[i]? <;>
        simp_all [receiverAlive, hb.notify_channels i]⟩
  delivered i c hc halive := by
    rw [hb.notify_channels i] at hc
    obtain ⟨c₀, hc₀, rfl⟩ := Option.map_eq_some'.mp hc
    simp only [Channel.deliver_receiverAlive] at halive
    simp only [Channel.deliver, hb.mem_eventStream hc₀ halive, halive, and_self, if_true]
    show c₀.received ++ (c₀.queue ++ [event]) = (b.journal ++ [event]).drop c₀.since
    rw [← List.append_assoc, hb.delivered i c₀ hc₀ halive,
      List.drop_append_of_le_length (hb.since_le i c₀ hc₀)]
  since_le i c hc := by
    rw [hb.notify_channels i] at hc
    obtain ⟨c₀, hc₀, rfl⟩ := Option.map_eq_some'.mp hc
    simpa [Bus.notify] using (hb.since_le i c₀ hc₀).trans (Nat.le_succ _)

theorem notifyAll : ∀ {b : Bus}, Subscribers b → ∀ events, Subscribers (b.notifyAll events)
  | _, hb, [] => hb
  | _, hb, _ :: events => notifyAll hb.notify events

/-- `notify` queues the event on every live channel and leaves the dead ones alone. -/
theorem notify_channel (hb : Subscribers b) {i : Nat} {c : Channel}
    (hc : b.channels[i]? = some c) :
    (b.notify event).channels[i]? =
      some (if c.receiverAlive then { c with queue := c.queue ++ [event] } else c) := by
  rw [hb.notify_channels i, hc, Option.map_some', Channel.deliver]
  by_cases halive : c.receiverAlive = true
  · simp [halive, hb.mem_eventStream hc halive]
  · simp [halive]

/-- Nothing reaches a dropped subscriber through `notify`. -/
theorem notifyAll_dead : ∀ {b : Bus}, Subscribers b → ∀ {i : Nat} {c : Channel},
    b.channels[i]? = some c → c.receiverAlive = false →
      ∀ events, (b.notifyAll events).channels[i]? = some c
  | _, _, _, _, hc, _, [] => hc
  | _, hb, _, _, hc, hdead, _ :: events =>
      notifyAll_dead hb.notify (by simpa [hdead] using hb.notify_channel hc) hdead events

/-- `notify` keeps each channel where it is, with the point it subscribed at and whether its
receiver is alive. -/
theorem notifyAll_channel : ∀ {b : Bus}, Subscribers b → ∀ {i : Nat} {c : Channel},
    b.channels[i]? = some c → ∀ events, ∃ c', (b.notifyAll events).channels[i]? = some c' ∧
      c'.since = c.since ∧ c'.receiverAlive = c.receiverAlive
  | _, _, _, c, hc, [] => ⟨c, hc, rfl, rfl⟩
  | _, hb, _, _, hc, event :: events => by
      have hnotified : Subscribers (Bus.notify _ event) := hb.notify
      obtain ⟨c', hc', hs, ha⟩ :=
        notifyAll_channel hnotified (by rw [hb.notify_channels, hc]; rfl) events
      exact ⟨c', hc', by simpa using hs, by simpa using ha⟩

/-- Replacing one channel keeps the invariant when the new one subscribed at the same point,
is alive only if the old one was, and then holds what the old one held. -/
theorem set (hb : Subscribers b) {rx : Nat} {c c' : Channel} (hc : b.channels[rx]? = some c)
    (hsince : c'.since = c.since)
    (hheld : c'.receiverAlive = true →
      c.receiverAlive = true ∧ c'.received ++ c'.queue = c.received ++ c.queue) :
    Subscribers ⟨b.eventStream, b.channels.set rx c', b.journal⟩ := by
  have hlt : rx < b.channels.length := (List.getElem?_eq_some_iff.mp hc).1
  have hget : ∀ i d, (b.channels.set rx c')[i]? = some d →
      (i = rx ∧ d = c') ∨ (i ≠ rx ∧ b.channels[i]? = some d) := fun i d h => by
    by_cases hi : rx = i
    · subst hi; simp_all
    · exact .inr ⟨Ne.symm hi, by simpa [List.getElem?_set_ne hi] using h⟩
  obtain ⟨held, hheld_eq, hheld_alive⟩ := hb.senders
  refine ⟨⟨held, by simpa using hheld_eq, fun i h => hheld_alive i ?_⟩, fun i d hd halive => ?_,
    fun i d hd => ?_⟩
  · unfold receiverAlive at h ⊢
    split at h
    · rename_i d hd
      rcases hget i d hd with ⟨rfl, rfl⟩ | ⟨-, hd⟩
      · simp [hc, (hheld h).1]
      · simp [hd, h]
    · cases h
  · rcases hget i d hd with ⟨rfl, rfl⟩ | ⟨-, hd⟩
    · rw [(hheld halive).2, hsince]; exact hb.delivered _ c hc (hheld halive).1
    · exact hb.delivered i d hd halive
  · rcases hget i d hd with ⟨rfl, rfl⟩ | ⟨-, hd⟩
    · exact hsince ▸ hb.since_le _ c hc
    · exact hb.since_le i d hd

end Subscribers

namespace World

variable {w : World}

theorem subscribers_swarmEvents (hw : Subscribers w.bus) : Subscribers w.swarmEvents.bus := by
  obtain ⟨held, hheld_eq, hheld_alive⟩ := hw.senders
  have hget : ∀ i d, (w.channels ++ [⟨[], true, [], w.journal.length⟩])[i]? = some d →
      w.channels[i]? = some d ∨
        (i = w.channels.length ∧ d = ⟨[], true, [], w.journal.length⟩) := by
    intro i d h
    rw [List.getElem?_append] at h
    split_ifs at h with hi
    · exact .inl h
    · have hlt := (List.getElem?_eq_some_iff.mp h).1
      simp only [List.length_singleton] at hlt
      obtain rfl : i = w.channels.length := by omega
      simp_all
  refine ⟨⟨fun i => held i || i == w.channels.length, ?_, fun i h => ?_⟩, fun i d hd halive => ?_,
    fun i d hd => ?_⟩
  · have hrange : (List.range w.channels.length).filter
        (fun i => held i || i == w.channels.length) = w.book.eventStream := by
      rw [show w.book.eventStream = w.bus.eventStream from rfl, hheld_eq]
      exact List.filter_congr fun i hi => by
        simp [Nat.ne_of_lt (List.mem_range.mp hi)]
    simp [World.bus, swarmEvents, List.range_succ, List.filter_append, hrange]
  · unfold receiverAlive at h
    split at h
    · rename_i d hd
      rcases hget i d hd with hd | ⟨rfl, -⟩
      · exact Bool.or_eq_true_iff.mpr
          (.inl (hheld_alive i (by simp [receiverAlive, World.bus, hd, h])))
      · simp
    · cases h
  · rcases hget i d hd with hd | ⟨-, rfl⟩
    · exact hw.delivered i d hd halive
    · simp [World.bus, swarmEvents]
  · rcases hget i d hd with hd | ⟨-, rfl⟩
    · exact hw.since_le i d hd
    · simp [World.bus, swarmEvents]

theorem subscribers_dropSwarmEvents (hw : Subscribers w.bus) (rx : Nat) :
    Subscribers (w.dropSwarmEvents rx).bus := by
  unfold dropSwarmEvents
  split
  · rename_i c hc
    exact hw.set hc rfl fun h => by cases h
  · exact hw

theorem subscribers_pollSwarmEvents (hw : Subscribers w.bus) (rx : Nat) :
    Subscribers (w.pollSwarmEvents rx).bus := by
  unfold pollSwarmEvents
  split
  · rename_i event queue received since hc
    exact hw.set hc rfl fun _ => ⟨rfl, by simp⟩
  · exact hw

theorem notifyAll_concat (b : Bus) (events : List Event) (event : Event) :
    b.notifyAll (events ++ [event]) = (b.notifyAll events).notify event := by
  simp [Bus.notifyAll, List.foldl_append]

theorem addAddress_bus (peer : PeerId) (address : Multiaddr) (source : AddressSource) :
    ∃ events, (w.addAddress peer address source).bus = w.bus.notifyAll events := by
  by_cases hacc : w.book.Accepts peer address
  · rw [addAddress_of_accepts hacc]
    split_ifs
    · exact ⟨[], rfl⟩
    · exact ⟨[.discovered peer], rfl⟩
  · rw [addAddress_of_rejects hacc]
    exact ⟨[], rfl⟩

theorem trackConnection_bus (peerId : PeerId) (remote : Multiaddr) (event : Event) :
    ∃ events, (w.trackConnection peerId remote event).bus = w.bus.notifyAll events := by
  obtain ⟨events, hevents⟩ := addAddress_bus peerId (normalizeAddr remote peerId) .peer
  exact ⟨events ++ [event], by rw [notifyAll_concat, ← hevents]; rfl⟩

/-- What one step does to the event bus: a series of `notify` calls, a subscription, or a
subscriber dropping or consuming its stream. -/
theorem step_bus_cases {op : Op} {w' : World} (h : w.step op = some w') :
    (∃ events, w'.bus = w.bus.notifyAll events) ∨ (op = .swarmEvents ∧ w' = w.swarmEvents) ∨
    (∃ rx, op = .dropSwarmEvents rx ∧ w' = w.dropSwarmEvents rx) ∨
    (∃ rx, op = .pollSwarmEvents rx ∧ w' = w.pollSwarmEvents rx) := by
  cases op with
  | swarmEvents => cases h; exact .inr (.inl ⟨rfl, rfl⟩)
  | dropSwarmEvents rx => cases h; exact .inr (.inr (.inl ⟨rx, rfl, rfl⟩))
  | pollSwarmEvents rx => cases h; exact .inr (.inr (.inr ⟨rx, rfl, rfl⟩))
  | addAddress peer address source => cases h; exact .inl (addAddress_bus peer address source)
  | injectConnectionEstablished _ _ _ | injectAddressChange _ _ _ _ =>
      cases h; exact .inl (trackConnection_bus _ _ _)
  | setRtt peerId rtt =>
      rcases setRtt_cases h with ⟨-, rfl⟩ | ⟨info, updated, -, rfl⟩
      · exact .inl ⟨[], rfl⟩
      · exact .inl ⟨[_], rfl⟩
  | injectAddrReachFailure peerId addr error =>
      cases peerId with
      | none => cases h; exact .inl ⟨[], rfl⟩
      | some peerId =>
          rcases step_injectAddrReachFailure h with ⟨-, rfl⟩ | ⟨-, -, rfl⟩ | ⟨-, -, rfl⟩
          · exact .inl ⟨[_], rfl⟩
          · exact .inl ⟨[_], by rw [AddressBook.removeAddress_eq]; rfl⟩
          · exact .inl ⟨[_], rfl⟩
  | injectDialFailure peerId =>
      rcases step_injectDialFailure h with ⟨-, rfl⟩ | ⟨-, -, -, rfl⟩ | ⟨-, -, -, rfl⟩ |
        ⟨-, -, rfl⟩
      · exact .inl ⟨[], by rw [AddressBook.dial_eq]; rfl⟩
      · exact .inl ⟨[_], rfl⟩
      · exact .inl ⟨[_], rfl⟩
      · exact .inl ⟨[], rfl⟩
  | dial _ | removeAddress _ _ | setInfo _ _ | poll =>
      cases h
      exact .inl ⟨[], by simp [World.bus, Bus.notifyAll, AddressBook.dial_eq,
        AddressBook.removeAddress_eq, AddressBook.setInfo_eq, AddressBook.poll_snd]⟩
  | notify _ | injectConnected _ | injectDisconnected _ | injectConnectionClosed _ _ _
  | injectNewListener _ | injectNewListenAddr _ _ | injectExpiredListenAddr _ _
  | injectListenerError _ _ | injectListenerClosed _ | injectNewExternalAddr _
  | injectExpiredExternalAddr _ => cases h; exact .inl ⟨[_], rfl⟩

/-- A dropped subscriber's channel never changes again. -/
theorem dead_channel_step {op : Op} {w' : World} (hw : Subscribers w.bus)
    (h : w.step op = some w') {i : Nat} {c : Channel} (hc : w.channels[i]? = some c)
    (hdead : c.receiverAlive = false) : w'.channels[i]? = some c := by
  have hlt : i < w.channels.length := (List.getElem?_eq_some_iff.mp hc).1
  rcases step_bus_cases h with ⟨events, hbus⟩ | ⟨-, rfl⟩ | ⟨rx, -, rfl⟩ | ⟨rx, -, rfl⟩
  · have hnotified := hw.notifyAll_dead hc hdead events
    rw [← hbus] at hnotified
    exact hnotified
  · simpa [swarmEvents, List.getElem?_append_left hlt] using hc
  · unfold dropSwarmEvents
    split
    · rename_i c' hc'
      by_cases hi : rx = i
      · subst hi
        obtain rfl : c' = c := Option.some.inj (hc'.symm.trans hc)
        cases c'; simp_all
      · simpa [List.getElem?_set_ne hi] using hc
    · exact hc
  · unfold pollSwarmEvents
    split
    · rename_i event queue received since hc'
      by_cases hi : rx = i
      · subst hi; simp_all
      · simpa [List.getElem?_set_ne hi] using hc
    · exact hc

/-- Every step keeps each channel where it is, with the point it subscribed at, and keeps its
receiver alive unless the step is the drop of its `SwarmEvents`. -/
theorem channel_step {op : Op} {w' : World} (hw : Subscribers w.bus) (h : w.step op = some w')
    {i : Nat} {c : Channel} (hc : w.channels[i]? = some c) :
    ∃ c', w'.channels[i]? = some c' ∧ c'.since = c.since ∧
      (c.receiverAlive = true → op ≠ .dropSwarmEvents i → c'.receiverAlive = true) := by
  have hlt : i < w.channels.length := (List.getElem?_eq_some_iff.mp hc).1
  rcases step_bus_cases h with ⟨events, hbus⟩ | ⟨-, rfl⟩ | ⟨rx, rfl, rfl⟩ | ⟨rx, -, rfl⟩
  · obtain ⟨c', hc', hs, ha⟩ := hw.notifyAll_channel hc events
    rw [← hbus] at hc'
    exact ⟨c', hc', hs, fun halive _ => ha ▸ halive⟩
  · exact ⟨c, by simpa [swarmEvents, List.getElem?_append_left hlt] using hc, rfl, fun h _ => h⟩
  · unfold dropSwarmEvents
    split
    · rename_i c₀ hc₀
      by_cases hi : rx = i
      · subst hi
        rw [hc, Option.some.injEq] at hc₀
        subst hc₀
        exact ⟨{ c with receiverAlive := false }, by simp [hlt], rfl, fun _ hne => absurd rfl hne⟩
      · exact ⟨c, by simpa [List.getElem?_set_ne hi] using hc, rfl, fun h _ => h⟩
    · exact ⟨c, hc, rfl, fun h _ => h⟩
  · unfold pollSwarmEvents
    split
    · rename_i event queue received since hc₀
      by_cases hi : rx = i
      · subst hi
        rw [hc, Option.some.injEq] at hc₀
        subst hc₀
        exact ⟨⟨queue, true, received ++ [event], since⟩, by simp [hlt], rfl, fun _ _ => rfl⟩
      · exact ⟨c, by simpa [List.getElem?_set_ne hi] using hc, rfl, fun h _ => h⟩
    · exact ⟨c, hc, rfl, fun h _ => h⟩

theorem subscribers_step {op : Op} {w' : World} (hw : Subscribers w.bus)
    (h : w.step op = some w') : Subscribers w'.bus := by
  rcases step_bus_cases h with ⟨events, hbus⟩ | ⟨-, rfl⟩ | ⟨rx, -, rfl⟩ | ⟨rx, -, rfl⟩
  · exact hbus ▸ hw.notifyAll events
  · exact subscribers_swarmEvents hw
  · exact subscribers_dropSwarmEvents hw rx
  · exact subscribers_pollSwarmEvents hw rx

end World

theorem subscribers_of_reachable {w : World} (hw : Reachable w) : Subscribers w.bus :=
  @Reachable.induction (fun w => Subscribers w.bus)
    (fun _ _ _ => ⟨⟨fun _ => false, rfl, fun i h => by
        simp [receiverAlive, World.new, World.bus] at h⟩,
      fun i c h => by simp [World.new, World.bus] at h,
      fun i c h => by simp [World.new, World.bus] at h⟩)
    (fun _ _ _ hw h => World.subscribers_step hw h) w hw

/-- Over a run, each channel stays where it is with the point it subscribed at, and its receiver
stays alive unless the run drops its `SwarmEvents`. -/
theorem channel_run : ∀ {ops : List Op} {w w' : World}, Reachable w → w.run ops = some w' →
    ∀ {i : Nat} {c : Channel}, w.channels[i]? = some c →
      ∃ c', w'.channels[i]? = some c' ∧ c'.since = c.since ∧
        (c.receiverAlive = true → .dropSwarmEvents i ∉ ops → c'.receiverAlive = true)
  | [], _, _, _, h, _, c, hc => by cases h; exact ⟨c, hc, rfl, fun h _ => h⟩
  | op :: ops, _, _, hw, h, _, _, hc => by
      obtain ⟨v, hv, hrest⟩ := Option.bind_eq_some.mp h
      obtain ⟨c₁, hc₁, hs₁, ha₁⟩ := World.channel_step (subscribers_of_reachable hw) hv hc
      obtain ⟨c', hc', hs', ha'⟩ := channel_run (hw.step hv) hrest hc₁
      refine ⟨c', hc', hs'.trans hs₁, fun halive hdrop => ha' ?_ ?_⟩
      · exact ha₁ halive fun hop => hdrop (hop ▸ List.mem_cons_self _ _)
      · exact fun hmem => hdrop (List.mem_cons_of_mem _ hmem)

/-- In every reachable state each subscriber whose receiver is alive has been handed, consumed
or still queued, exactly the events passed to `notify` since its `swarm_events` call, in
order; a `notify` keeps exactly the senders of the live subscribers, in subscription order,
queues the event once on each live channel and leaves the others alone; no step changes the
channel of a dropped subscriber; and a `swarm_events` call, followed by any run, leaves a
channel at the next index that remembers the journal length at the call, whose receiver is
alive unless the run dropped it, and which, while alive, has been handed exactly the events
passed to `notify` since the call. -/
theorem live_subscribers_receive_journal {w : World} (hw : Reachable w) :
    (∀ (i : Nat) (c : Channel), w.channels[i]? = some c → c.receiverAlive = true →
      c.received ++ c.queue = w.journal.drop c.since) ∧
    (∀ event, (w.notify event).book.eventStream =
        (List.range w.channels.length).filter (receiverAlive w.channels) ∧
      ∀ (i : Nat) (c : Channel), w.channels[i]? = some c → (w.notify event).channels[i]? =
        some (if c.receiverAlive then { c with queue := c.queue ++ [event] } else c)) ∧
    (∀ (op : Op) (w' : World) (i : Nat) (c : Channel), w.step op = some w' →
      w.channels[i]? = some c → c.receiverAlive = false → w'.channels[i]? = some c) ∧
    (∀ (ops : List Op) (w' : World), w.run (.swarmEvents :: ops) = some w' →
      ∃ c, w'.channels[w.channels.length]? = some c ∧ c.since = w.journal.length ∧
        (.dropSwarmEvents w.channels.length ∉ ops → c.receiverAlive = true) ∧
        (c.receiverAlive = true → c.received ++ c.queue = w'.journal.drop w.journal.length)) := by
  have hsub := subscribers_of_reachable hw
  refine ⟨hsub.delivered,
    fun event => ⟨hsub.notify_eventStream, fun i c hc => hsub.notify_channel hc⟩,
    fun op w' i c h hc hdead => World.dead_channel_step hsub h hc hdead, fun ops w' h => ?_⟩
  have hrest : w.swarmEvents.run ops = some w' := h
  have hsubscribed : Reachable w.swarmEvents := @Reachable.step _ _ .swarmEvents hw rfl
  have hnew : w.swarmEvents.channels[w.channels.length]? =
      some ⟨[], true, [], w.journal.length⟩ := by simp [World.swarmEvents]
  obtain ⟨c, hc, hs, ha⟩ := channel_run hsubscribed hrest hnew
  have hs : c.since = w.journal.length := hs
  refine ⟨c, hc, hs, ha rfl, fun halive => ?_⟩
  rw [← hs]
  exact (subscribers_of_reachable (hsubscribed.run hrest)).delivered _ c hc halive

/-- Two subscribers; the first drops its stream, the second consumes one event. -/
theorem live_subscribers_receive_journal_after_drop :
    ∃ w, (World.new ⟨0⟩ false true).run
        [.swarmEvents, .addAddress ⟨1⟩ [.ip4 ⟨1, 1, 1, 1⟩, .tcp 3333] .mdns, .swarmEvents,
          .dropSwarmEvents 0, .injectConnected ⟨1⟩, .pollSwarmEvents 1] = some w ∧
      (∀ (i : Nat) (c : Channel), w.channels[i]? = some c → c.receiverAlive = true →
        c.received ++ c.queue = w.journal.drop c.since) ∧
      (∀ event, (w.notify event).book.eventStream =
          (List.range w.channels.length).filter (receiverAlive w.channels) ∧
        ∀ (i : Nat) (c : Channel), w.channels[i]? = some c → (w.notify event).channels[i]? =
          some (if c.receiverAlive then { c with queue := c.queue ++ [event] } else c)) ∧
      (∀ (op : Op) (w' : World) (i : Nat) (c : Channel), w.step op = some w' →
        w.channels[i]? = some c → c.receiverAlive = false → w'.channels[i]? = some c) ∧
      (∀ (ops : List Op) (w' : World), w.run (.swarmEvents :: ops) = some w' →
        ∃ c, w'.channels[w.channels.length]? = some c ∧ c.since = w.journal.length ∧
          (.dropSwarmEvents w.channels.length ∉ ops → c.receiverAlive = true) ∧
          (c.receiverAlive = true → c.received ++ c.queue = w'.journal.drop w.journal.length)) := by
  refine ⟨?w, ?run, live_subscribers_receive_journal (Reachable.of_run ?run)⟩
  case run => exact rfl

end IpfsEmbed.Net
