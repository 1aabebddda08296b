import IpfsEmbed.Net.AddressBook

/-!
# Runs of the address book

The operations a run is made of: the public methods of `AddressBook`, the `NetworkBehaviour`
callbacks the swarm delivers, and what a subscriber does with its `SwarmEvents` (poll it or
drop it). `World.step` performs one of them and fails only where the code panics, in
`set_rtt`. `World.run` performs a list of them, and `Reachable` is what some run from
`AddressBook::new` reaches. `run_invariant` turns an invariant of one step into one of every run;
`countSteps` counts the steps of a run at which a condition holds, and
`run_invariant_of_countSteps_eq_zero` keeps an invariant over the runs where it never does.
-/

namespace IpfsEmbed.Net

/-- One call into the address book, or one action of a subscriber. -/
inductive Op where
  | dial (peer : PeerId)
  | addAddress (peer : PeerId) (address : Multiaddr) (source : AddressSource)
  | removeAddress (peer : PeerId) (address : Multiaddr)
  | setRtt (peerId : PeerId) (rtt : Option Duration)
  | setInfo (peerId : PeerId) (identify : IdentifyInfo)
  | swarmEvents
  | notify (event : Event)
  | poll
  | injectConnected (peerId : PeerId)
  | injectDisconnected (peerId : PeerId)
  | injectConnectionEstablished (peerId : PeerId) (conn : ConnectionId) (endpoint : ConnectedPoint)
  | injectAddressChange (peerId : PeerId) (conn : ConnectionId) (old new : ConnectedPoint)
  | injectConnectionClosed (peerId : PeerId) (conn : ConnectionId) (endpoint : ConnectedPoint)
  | injectAddrReachFailure (peerId : Option PeerId) (addr : Multiaddr) (error : String)
  | injectDialFailure (peerId : PeerId)
  | injectNewListener (id : ListenerId)
  | injectNewListenAddr (id : ListenerId) (addr : Multiaddr)
  | injectExpiredListenAddr (id : ListenerId) (addr : Multiaddr)
  | injectListenerError (id : ListenerId) (error : String)
  | injectListenerClosed (id : ListenerId)
  | injectNewExternalAddr (addr : Multiaddr)
  | injectExpiredExternalAddr (addr : Multiaddr)
  | dropSwarmEvents (rx : Nat)
  | pollSwarmEvents (rx : Nat)

namespace World

/-- Perform one operation; `none` is a panic. -/
def step (w : World) : Op → Option World
  | .dial peer => some { w with book := w.book.dial peer }
  | .addAddress peer address source => some (w.addAddress peer address source)
  | .removeAddress peer address => some { w with book := w.book.removeAddress peer address }
  | .setRtt peerId rtt => w.setRtt peerId rtt
  | .setInfo peerId identify => some { w with book := w.book.setInfo peerId identify }
  | .swarmEvents => some w.swarmEvents
  | .notify event => some (w.notify event)
  | .poll => some { w with book := w.book.poll.2 }
  | .injectConnected peerId => some (w.injectConnected peerId)
  | .injectDisconnected peerId => some (w.injectDisconnected peerId)
  | .injectConnectionEstablished peerId conn endpoint =>
      some (w.injectConnectionEstablished peerId conn endpoint)
  | .injectAddressChange peerId conn old new => some (w.injectAddressChange peerId conn old new)
  | .injectConnectionClosed peerId conn endpoint =>
      some (w.injectConnectionClosed peerId conn endpoint)
  | .injectAddrReachFailure peerId addr error => some (w.injectAddrReachFailure peerId addr error)
  | .injectDialFailure peerId => some (w.injectDialFailure peerId)
  | .injectNewListener id => some (w.injectNewListener id)
  | .injectNewListenAddr id addr => some (w.injectNewListenAddr id addr)
  | .injectExpiredListenAddr id addr => some (w.injectExpiredListenAddr id addr)
  | .injectListenerError id error => some (w.injectListenerError id error)
  | .injectListenerClosed id => some (w.injectListenerClosed id)
  | .injectNewExternalAddr addr => some (w.injectNewExternalAddr addr)
  | .injectExpiredExternalAddr addr => some (w.injectExpiredExternalAddr addr)
  | .dropSwarmEvents rx => some (w.dropSwarmEvents rx)
  | .pollSwarmEvents rx => some (w.pollSwarmEvents rx)

/-- Perform the operations in order, stopping at the first panic. -/
def run (w : World) : List Op → Option World
  | [] => some w
  | op :: ops => w.step op >>= fun w => w.run ops

@[simp] theorem run_nil (w : World) : w.run [] = some w := rfl

@[simp] theorem run_cons (w : World) (op : Op) (ops : List Op) :
    w.run (op :: ops) = w.step op >>= fun w => w.run ops := rfl

/-- Running `first ++ second` is running `first` and then `second`. -/
theorem run_append (w : World) (first second : List Op) :
    w.run (first ++ second) = w.run first >>= fun w => w.run second := by
  induction first generalizing w with
  | nil => rfl
  | cons op first ih =>
      simp only [List.cons_append, run_cons]
      cases w.step op with
      | none => rfl
      | some following => exact ih following

/-- A run ending with one more operation is the shorter run followed by that step. -/
theorem run_concat (w : World) (ops : List Op) (op : Op) :
    w.run (ops ++ [op]) = w.run ops >>= fun w => w.step op := by
  rw [run_append]
  cases w.run ops with
  | none => rfl
  | some following =>
      show following.run [op] = following.step op
      simp only [run_cons, run_nil]
      cases following.step op <;> rfl

/-- The number of steps of a run at which `p` holds of the state and the operation. -/
def countSteps (p : World → Op → Bool) : World → List Op → Nat
  | _, [] => 0
  | w, op :: ops =>
      match w.step op with
      | some w' => (if p w op then 1 else 0) + countSteps p w' ops
      | none => 0

end World

/-- A state some run from `AddressBook::new` reaches. -/
def Reachable (w : World) : Prop :=
  ∃ localPeerId enableLoopback pruneAddresses ops,
    (World.new localPeerId enableLoopback pruneAddresses).run ops = some w

/-- The end of a run from a new book is reachable. -/
theorem Reachable.of_run {localPeerId : PeerId} {enableLoopback pruneAddresses : Bool}
    {ops : List Op} {w : World}
    (h : (World.new localPeerId enableLoopback pruneAddresses).run ops = some w) : Reachable w :=
  ⟨localPeerId, enableLoopback, pruneAddresses, ops, h⟩

/-- A fact that survives every allowed step survives every run of allowed steps. -/
theorem run_invariant {Inv : World → Prop} (allowed : Op → Prop)
    (hstep : ∀ w op w', allowed op → Inv w → w.step op = some w' → Inv w') :
    ∀ {ops : List Op} {w w' : World}, (∀ op ∈ ops, allowed op) → Inv w →
      w.run ops = some w' → Inv w'
  | [], _, _, _, hw, h => by cases h; exact hw
  | op :: ops, w, w', hops, hw, h => by
      obtain ⟨following, hfirst, hrest⟩ := Option.bind_eq_some.mp h
      exact run_invariant allowed hstep (fun o ho => hops o (List.mem_cons_of_mem _ ho))
        (hstep w op following (hops op (List.mem_cons_self _ _)) hw hfirst) hrest

/-- A fact that survives every step at which `p` does not hold survives every run with no step
at which `p` holds. -/
theorem run_invariant_of_countSteps_eq_zero {Inv : World → Prop} (p : World → Op → Bool)
    (hstep : ∀ w op w', p w op = false → Inv w → w.step op = some w' → Inv w') :
    ∀ {ops : List Op} {w w' : World}, w.countSteps p ops = 0 → Inv w →
      w.run ops = some w' → Inv w'
  | [], _, _, _, hw, h => by cases h; exact hw
  | op :: ops, w, w', hcount, hw, h => by
      obtain ⟨following, hfirst, hrest⟩ := Option.bind_eq_some.mp h
      simp only [World.countSteps, hfirst] at hcount
      cases hp : p w op
      · exact run_invariant_of_countSteps_eq_zero p hstep (by simpa [hp] using hcount)
          (hstep w op following hp hw hfirst) hrest
      · simp [hp] at hcount

/-- An invariant that holds in every new book and survives every step holds in every
reachable state. -/
theorem Reachable.induction {Inv : World → Prop}
    (hnew : ∀ localPeerId enableLoopback pruneAddresses,
      Inv (World.new localPeerId enableLoopback pruneAddresses))
    (hstep : ∀ w op w', Inv w → w.step op = some w' → Inv w') {w : World}
    (hw : Reachable w) : Inv w := by
  obtain ⟨localPeerId, enableLoopback, pruneAddresses, ops, hrun⟩ := hw
  exact run_invariant (fun _ => True) (fun w op w' _ => hstep w op w')
    (fun _ _ => trivial) (hnew localPeerId enableLoopback pruneAddresses) hrun

/-- One more step from a reachable state reaches a reachable state. -/
theorem Reachable.step {w w' : World} {op : Op} (hw : Reachable w) (h : w.step op = some w') :
    Reachable w' := by
  obtain ⟨localPeerId, enableLoopback, pruneAddresses, ops, hrun⟩ := hw
  exact ⟨localPeerId, enableLoopback, pruneAddresses, ops ++ [op], by
    rw [World.run_concat, hrun]; exact h⟩

/-- A run from a reachable state reaches a reachable state. -/
theorem Reachable.run {w w' : World} {ops : List Op} (hw : Reachable w)
    (h : w.run ops = some w') : Reachable w' :=
  run_invariant (fun _ => True) (fun _ _ _ _ hw h => hw.step h) (fun _ _ => trivial) hw h

end IpfsEmbed.Net
