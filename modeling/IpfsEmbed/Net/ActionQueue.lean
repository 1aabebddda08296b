import IpfsEmbed.Net.StepCases

/-!
# The action queue

`AddressBook::dial`, also as the redial of `inject_dial_failure`, pushes a `DialPeer` at the back
of `actions`, and `NetworkBehaviour::poll` pops the front one for the swarm. Over a whole run the
queue is a FIFO channel from the book to the swarm: `actions_fifo` says that the actions `poll`
handed out, followed by the queue at the end, are the queue at the start followed by the dials
the run queued. No dial is lost, handed out twice, or handed out before one queued earlier.
`actions_step` is the step it rests on.
-/

namespace IpfsEmbed.Net

/-- The action `AddressBook::dial` queues: none for the local peer. -/
def AddressBook.dialAction (b : AddressBook) (peer : PeerId) : List NetworkBehaviourAction :=
  if peer = b.localPeerId then [] else [.dialPeer peer .disconnected]

theorem AddressBook.dial_actions (b : AddressBook) (peer : PeerId) :
    (b.dial peer).actions = b.actions ++ b.dialAction peer := by
  rw [dial_eq, dialAction]; split_ifs <;> simp

theorem AddressBook.poll_fst (b : AddressBook) : b.poll.1 = b.actions.head? := by
  unfold poll; split <;> simp_all

namespace World

/-- The actions an operation pushes at the back of the queue. -/
def queued (w : World) : Op → List NetworkBehaviourAction
  | .dial peer => w.book.dialAction peer
  | .injectDialFailure peerId => if w.book.redials peerId then w.book.dialAction peerId else []
  | _ => []

/-- The action an operation takes from the front of the queue: `poll` hands the oldest to the
swarm, and returns `Pending` on an empty queue. -/
def handedOut (w : World) : Op → List NetworkBehaviourAction
  | .poll => w.book.poll.1.toList
  | _ => []

/-- What `f` reads off the steps of a run, in order, up to a panic. -/
def collect {α : Type} (f : World → Op → List α) : World → List Op → List α
  | _, [] => []
  | w, op :: ops =>
      match w.step op with
      | some w' => f w op ++ collect f w' ops
      | none => []

variable {w w' : World} {op : Op}

/-- One step moves the queue as a FIFO: what it hands out, followed by the new queue, is the old
queue followed by what it pushes. -/
theorem actions_step (h : w.step op = some w') :
    w.handedOut op ++ w'.book.actions = w.book.actions ++ w.queued op := by
  cases op with
  | dial P => cases h; simp [handedOut, queued, AddressBook.dial_actions]
  | poll =>
      cases h
      cases hq : w.book.actions <;> simp [handedOut, queued, AddressBook.poll_fst,
        AddressBook.poll_snd, hq]
  | injectDialFailure P =>
      rcases step_injectDialFailure h with ⟨hr, rfl⟩ | ⟨hr, -, -, rfl⟩ | ⟨hr, -, -, rfl⟩ |
        ⟨hr, -, rfl⟩ <;> simp [handedOut, queued, hr, AddressBook.dial_actions]
  | _ =>
      rcases step_actions_cases h with hsame | ⟨hop, -⟩ | ⟨P, -, hop | ⟨hop, -⟩, -⟩
      · simp [handedOut, queued, hsame]
      all_goals cases hop

/-- For every run from any state: the actions `poll` handed out, followed by the queue at the
end, are the queue at the start followed by the dials `dial` and the redials of
`inject_dial_failure` queued, in order. -/
theorem actions_fifo : ∀ {ops : List Op} {w w' : World}, w.run ops = some w' →
    w.collect handedOut ops ++ w'.book.actions = w.book.actions ++ w.collect queued ops
  | [], _, _, h => by cases h; simp [collect]
  | op :: ops, w, w', h => by
      obtain ⟨v, hv, hrest⟩ := Option.bind_eq_some.mp h
      simp only [collect, hv, List.append_assoc]
      rw [actions_fifo hrest, ← List.append_assoc, actions_step hv, List.append_assoc]

/-- Two dials from a new book, and a `poll` that hands the first to the swarm. -/
theorem actions_fifo_two_dials :
    ∃ w, (World.new ⟨0⟩ false true).run [.dial ⟨1⟩, .dial ⟨0⟩, .dial ⟨2⟩, .poll] = some w ∧
      (World.new ⟨0⟩ false true).collect handedOut
          [.dial ⟨1⟩, .dial ⟨0⟩, .dial ⟨2⟩, .poll] ++ w.book.actions =
        (World.new ⟨0⟩ false true).book.actions ++
          (World.new ⟨0⟩ false true).collect queued [.dial ⟨1⟩, .dial ⟨0⟩, .dial ⟨2⟩, .poll] :=
  ⟨_, rfl, actions_fifo rfl⟩

end World

end IpfsEmbed.Net
