import IpfsEmbed.Net.StepCases
import IpfsEmbed.Net.RttDecay

/-!
# The round-trip times of a record

What the `rtt` of a record holds after a whole run. `rttLog` is a history variable: the
samples that `set_rtt` handed to the record of a peer since the record was last created. A
record is created only by an `add_address` past its guards (`World.mem_peers_step_iff`), and
the log starts afresh there.
`rttSummary_of_foldlM` says what `set_rtt`'s update folded over such a log leaves: nothing
before the first sample; then the last sample, `Rtt::register`'s two formulas folded over the
samples from `Rtt::new` of the first, and the failures since the last sample, counted modulo
`2^32` as a release build counts them. `rtt_replays_samples` is the whole run; `rttLogged_step` is the simulation step it
rests on, and `rttOf_step` says once what a step can do to an estimator (`RttStep`).
-/

namespace IpfsEmbed.Net

/-- The sample an operation hands to `set_rtt` for `peer`. -/
def Op.rttSample (peer : PeerId) : Op → Option (Option Duration)
  | .setRtt peerId rtt => if peerId = peer then some rtt else none
  | _ => none

/-- The number of failures at the end of a log, after its last sample. -/
def trailingNones (log : List (Option Duration)) : Nat :=
  (log.reverse.takeWhile Option.isNone).length

@[simp] theorem trailingNones_nil : trailingNones [] = 0 := rfl

@[simp] theorem trailingNones_append_none (log : List (Option Duration)) :
    trailingNones (log ++ [none]) = trailingNones log + 1 := by
  simp [trailingNones]

@[simp] theorem trailingNones_append_some (log : List (Option Duration)) (d : Duration) :
    trailingNones (log ++ [some d]) = 0 := by
  simp [trailingNones]

namespace World

/-- The estimator in the record of `peer`; `none` when there is no record. -/
def rttOf (w : World) (peer : PeerId) : Option (Option Rtt) :=
  (w.book.peers.lookup peer).map PeerInfo.rtt

/-- The `set_rtt` samples of `peer` along a run from `w`, appended to `log` and started afresh at
every step after which `peer` has no record. -/
def rttLog (peer : PeerId) : World → List Op → List (Option Duration) → List (Option Duration)
  | _, [], log => log
  | w, op :: ops, log =>
      match w.step op with
      | some w' => w'.rttLog peer ops
          (if peer ∈ w'.book.peers then log ++ (op.rttSample peer).toList else [])
      | none => log

variable {w w' : World} {op : Op} {P Q : PeerId}

theorem rttOf_eq_none : w.rttOf P = none ↔ P ∉ w.book.peers := by
  simp [rttOf, AList.lookup_eq_none]

/-! ## What each method does to the estimator -/

/-- Rewriting a record without touching its estimator keeps every estimator. -/
theorem rtt_lookup_insert_of_rtt {peers : AList (fun _ : PeerId => PeerInfo)}
    {info info' : PeerInfo} (hinfo : peers.lookup Q = some info) (hrtt : info'.rtt = info.rtt) :
    ((peers.insert Q info').lookup P).map PeerInfo.rtt = (peers.lookup P).map PeerInfo.rtt := by
  by_cases hPQ : P = Q
  · subst hPQ; simp [hinfo, hrtt]
  · simp [AList.lookup_insert_ne hPQ]

theorem rtt_erased {b : AddressBook} {a : Multiaddr} :
    ((b.erased Q a).lookup P).map PeerInfo.rtt = (b.peers.lookup P).map PeerInfo.rtt := by
  unfold AddressBook.erased
  split
  · rename_i info hinfo
    exact rtt_lookup_insert_of_rtt hinfo rfl
  · rfl

theorem rtt_identified {b : AddressBook} {identify : IdentifyInfo} :
    ((b.identified Q identify).lookup P).map PeerInfo.rtt = (b.peers.lookup P).map PeerInfo.rtt := by
  unfold AddressBook.identified
  split
  · rename_i info hinfo
    exact rtt_lookup_insert_of_rtt hinfo rfl
  · rfl

@[simp] theorem storeAddress_rtt {info : PeerInfo} {a : Multiaddr} {s : AddressSource} :
    (info.storeAddress a s).rtt = info.rtt := by
  unfold PeerInfo.storeAddress; split_ifs <;> rfl

/-- `add_address` past its guards keeps every estimator, and gives a new record none. -/
theorem rttOf_stored {a : Multiaddr} {s : AddressSource} :
    ((w.stored Q a s).book.peers.lookup P).map PeerInfo.rtt =
      if P = Q then some ((w.rttOf P).getD none) else w.rttOf P := by
  unfold rttOf
  rw [lookup_stored]
  split_ifs with hPQ
  · subst hPQ; cases w.book.peers.lookup P <;> simp
  · rfl

/-- `set_rtt` on a known peer stores what `updateRtt` makes of its estimator and the sample. -/
theorem setRtt_updates {rtt : Option Duration} {info : PeerInfo} (h : w.setRtt Q rtt = some w')
    (hinfo : w.book.peers.lookup Q = some info) :
    ∃ updated, updateRtt info.rtt rtt = some updated ∧
      w'.book.peers = w.book.peers.insert Q { info with rtt := updated } := by
  unfold setRtt at h
  rw [hinfo] at h
  obtain ⟨updated, hup, rfl⟩ := Option.map_eq_some'.mp h
  exact ⟨updated, hup, rfl⟩

/-- What a step does to the estimator of `P`: keep it, give a record it creates none, or store
what `updateRtt` makes of the estimator and the sample of a `set_rtt` of `P`. -/
def RttStep (P : PeerId) (w : World) (op : Op) (w' : World) : Prop :=
  (w'.rttOf P = w.rttOf P ∧ op.rttSample P = none) ∨
  (w.rttOf P = none ∧ w'.rttOf P = some none ∧ op.rttSample P = none) ∨
  ∃ rtt sample updated, w.rttOf P = some rtt ∧ op.rttSample P = some sample ∧
    updateRtt rtt sample = some updated ∧ w'.rttOf P = some updated

theorem RttStep.of_peers (hpeers : w'.book.peers = w.book.peers) (hnone : op.rttSample P = none) :
    RttStep P w op w' :=
  .inl ⟨by rw [rttOf, hpeers, rttOf], hnone⟩

/-- `add_address`, called directly or by a connection callback, is a step of the estimator. -/
theorem RttStep.of_addAddress {a : Multiaddr} {s : AddressSource}
    (hpeers : w'.book.peers = (w.addAddress Q a s).book.peers) (hnone : op.rttSample P = none) :
    RttStep P w op w' := by
  have hrtt : w'.rttOf P =
      if w.book.Accepts Q a ∧ P = Q then some ((w.rttOf P).getD none) else w.rttOf P := by
    rw [rttOf, hpeers, addAddress_book]
    by_cases hacc : w.book.Accepts Q a
    · simp only [hacc, if_true, true_and, rttOf_stored]
    · simp [hacc, rttOf]
  unfold RttStep
  rw [hrtt]
  split_ifs
  · cases w.rttOf P
    · exact .inr (.inl ⟨rfl, rfl, hnone⟩)
    · exact .inl ⟨rfl, hnone⟩
  · exact .inl ⟨rfl, hnone⟩

/-- The simulation step: every step that leaves `P` with a record is a step of its estimator. -/
theorem rttOf_step (h : w.step op = some w') (hP : P ∈ w'.book.peers) : RttStep P w op w' := by
  cases op with
  | addAddress Q a s => cases h; exact .of_addAddress rfl rfl
  | injectConnectionEstablished Q c e =>
      cases h
      exact .of_addAddress (Q := Q) (a := normalizeAddr e.getRemoteAddress Q) (s := .peer)
        (by simp [trackConnection]) rfl
  | injectAddressChange Q c old new =>
      cases h
      exact .of_addAddress (Q := Q) (a := normalizeAddr new.getRemoteAddress Q) (s := .peer)
        (by simp [trackConnection]) rfl
  | removeAddress Q a =>
      cases h; exact .inl ⟨by simp [AddressBook.removeAddress_eq, rtt_erased, rttOf], rfl⟩
  | injectAddrReachFailure peerId a e =>
      cases peerId with
      | none => cases h; exact .of_peers rfl rfl
      | some Q =>
          rcases step_injectAddrReachFailure h with ⟨-, rfl⟩ | ⟨-, -, rfl⟩ | ⟨-, -, rfl⟩
          · exact .of_peers rfl rfl
          · exact .inl ⟨by simp [AddressBook.removeAddress_eq, rtt_erased, rttOf], rfl⟩
          · exact .of_peers rfl rfl
  | setRtt Q rtt =>
      rcases setRtt_cases h with ⟨hQ, rfl⟩ | ⟨info, -, hinfo, -⟩
      · have hPQ : Q ≠ P := by rintro rfl; exact hQ hP
        exact .of_peers rfl (by simp [Op.rttSample, hPQ])
      · obtain ⟨updated, hup, hpeers⟩ := setRtt_updates h hinfo
        by_cases hQP : Q = P
        · subst hQP
          exact .inr (.inr ⟨info.rtt, rtt, updated, by simp [rttOf, hinfo],
            by simp [Op.rttSample], hup, by simp [rttOf, hpeers]⟩)
        · exact .inl ⟨by simp [rttOf, hpeers, AList.lookup_insert_ne (Ne.symm hQP)],
            by simp [Op.rttSample, hQP]⟩
  | setInfo Q identify =>
      cases h; exact .inl ⟨by simp [AddressBook.setInfo_eq, rtt_identified, rttOf], rfl⟩
  | injectDialFailure Q =>
      rcases step_injectDialFailure h with ⟨-, rfl⟩ | ⟨-, -, -, rfl⟩ | ⟨-, -, -, rfl⟩ |
        ⟨-, -, rfl⟩
      · exact .of_peers (by simp [AddressBook.dial_eq]) rfl
      · have hPQ : P ≠ Q := by rintro rfl; simp at hP
        exact .inl ⟨by simp [rttOf, AList.lookup_erase_ne hPQ], rfl⟩
      all_goals exact .of_peers rfl rfl
  | _ =>
      cases h
      exact .of_peers
        (by simp [AddressBook.dial_eq, AddressBook.poll_snd, swarmEvents, injectConnectionClosed])
        rfl

/-! ## The refinement -/

/-- What the log of `peer` says about its record: no record and an empty log, or the estimator
that `set_rtt`'s update makes of the log's samples. -/
def RttLogged (peer : PeerId) (w : World) (log : List (Option Duration)) : Prop :=
  (w.rttOf peer).elim (log = []) fun rtt => log.foldlM updateRtt none = some rtt

/-- The simulation step: the log extended by the step's sample, or emptied when the step leaves
`P` with no record, still describes the estimator. -/
theorem rttLogged_step (h : w.step op = some w') {log : List (Option Duration)}
    (hlog : RttLogged P w log) :
    RttLogged P w' (if P ∈ w'.book.peers then log ++ (op.rttSample P).toList else []) := by
  split_ifs with hP
  · rcases rttOf_step h hP with ⟨hw', hnone⟩ | ⟨hw, hw', hnone⟩ |
      ⟨rtt, sample, updated, hw, hsample, hup, hw'⟩
    · simpa [RttLogged, hw', hnone] using hlog
    · simp only [RttLogged, hw, Option.elim] at hlog
      simp [RttLogged, hw', hnone, hlog]
    · simp only [RttLogged, hw, Option.elim] at hlog
      simp [RttLogged, hw', hsample, hlog, hup]
  · simp [RttLogged, rttOf_eq_none.mpr hP]

/-- Along every run the log of `peer` describes its estimator, given that it does at the
start. -/
theorem rttLogged_run : ∀ {ops : List Op} {w w' : World} {log : List (Option Duration)},
    RttLogged P w log → w.run ops = some w' → RttLogged P w' (w.rttLog P ops log)
  | [], _, _, _, hlog, h => by cases h; exact hlog
  | op :: ops, w, w', log, hlog, h => by
      obtain ⟨following, hstep, hrest⟩ := Option.bind_eq_some.mp h
      simp only [rttLog, hstep]
      exact rttLogged_run (rttLogged_step hstep hlog) hrest

end World

/-! ## What the samples leave in the estimator -/

/-- What the samples of a log leave in an estimator: none before the first sample; then the last
sample, `Rtt::register`'s two formulas in nanoseconds folded over the samples from `Rtt::new` of
the first, and the failures after the last sample counted modulo `2^32`. -/
def RttSummary (log : List (Option Duration)) : Option Rtt → Prop
  | none => log.filterMap id = []
  | some r => ∃ first rest, log.filterMap id = first :: rest ∧
      r.current = (first :: rest).getLast (List.cons_ne_nil _ _) ∧
      r.decay3.asNanos = rest.foldl (fun d s => Rtt.decay3Step d s.asNanos) first.asNanos ∧
      r.decay10.asNanos = rest.foldl (fun d s => Rtt.decay10Step d s.asNanos) first.asNanos ∧
      r.failures.toNat = trailingNones log % 2 ^ 32

/-- One `set_rtt` keeps the summary: a failure before the first sample is dropped, a failure
after it is counted, the first sample starts the estimator and a later one is registered. -/
theorem RttSummary.update {log : List (Option Duration)} {rtt updated : Option Rtt}
    {sample : Option Duration} (hs : RttSummary log rtt) (hup : updateRtt rtt sample = some updated) :
    RttSummary (log ++ [sample]) updated := by
  cases sample with
  | none =>
      cases rtt with
      | none =>
          cases hup
          simpa [RttSummary] using hs
      | some r =>
          cases hup
          obtain ⟨first, rest, hlog, hcur, h3, h10, hfail⟩ := hs
          refine ⟨first, rest, by simpa using hlog, hcur, h3, h10, ?_⟩
          show (r.failures.toNat + 1) % 2 ^ 32 = _
          rw [hfail, trailingNones_append_none]
          omega
  | some d =>
      cases rtt with
      | none =>
          cases hup
          exact ⟨d, [], by simpa [RttSummary] using hs, rfl, rfl, rfl, by simp [Rtt.new]⟩
      | some r =>
          obtain ⟨r', hr', rfl⟩ := Option.map_eq_some'.mp hup
          obtain ⟨first, rest, hlog, -, h3, h10, -⟩ := hs
          obtain ⟨hcur', h3', h10', hfail'⟩ := Rtt.register_spec hr'
          refine ⟨first, rest ++ [d], by simp [hlog], by simp [hcur'], ?_, ?_, by simp [hfail']⟩
          · rw [h3', h3, List.foldl_append]; rfl
          · rw [h10', h10, List.foldl_append]; rfl

/-- What `set_rtt`'s update folded over a log leaves, from a record with no estimator. -/
theorem rttSummary_of_foldlM {log : List (Option Duration)} :
    ∀ {rtt : Option Rtt}, log.foldlM updateRtt none = some rtt → RttSummary log rtt := by
  induction log using List.reverseRecOn with
  | nil => intro rtt h; cases h; rfl
  | append_singleton log sample ih =>
      intro updated h
      rw [List.foldlM_append] at h
      obtain ⟨rtt, hrtt, hup⟩ := Option.bind_eq_some.mp h
      exact (ih hrtt).update (by simpa using hup)

/-- For every run from `AddressBook::new` and every peer `P` with a record, with `log` the
`set_rtt(P, _)` samples since the record was last created: the record has no estimator exactly
when no sample is `Some`; otherwise its `current` is the last `Some` sample, `decay_3` and
`decay_10` are `Rtt::register`'s formulas folded in nanoseconds over the `Some` samples from
`Rtt::new` of the first, and `failures` is the number of `None` samples after the last `Some`
one, modulo `2^32` (so the number itself while it is below `2^32`). -/
theorem rtt_replays_samples {localPeerId : PeerId} {enableLoopback pruneAddresses : Bool}
    {ops : List Op} {w : World}
    (hrun : (World.new localPeerId enableLoopback pruneAddresses).run ops = some w)
    (P : PeerId) {info : PeerInfo} (hinfo : w.book.peers.lookup P = some info) :
    let log := (World.new localPeerId enableLoopback pruneAddresses).rttLog P ops []
    (info.rtt = none ↔ log.filterMap id = []) ∧
    ∀ r, info.rtt = some r → ∃ first rest, log.filterMap id = first :: rest ∧
      r.current = (first :: rest).getLast (List.cons_ne_nil _ _) ∧
      r.decay3.asNanos = rest.foldl (fun d s => Rtt.decay3Step d s.asNanos) first.asNanos ∧
      r.decay10.asNanos = rest.foldl (fun d s => Rtt.decay10Step d s.asNanos) first.asNanos ∧
      r.failures.toNat = trailingNones log % 2 ^ 32 := by
  intro log
  have hlogged : World.RttLogged P w log :=
    World.rttLogged_run (by simp [World.RttLogged, World.rttOf, World.new, AddressBook.new]) hrun
  have hsum : RttSummary log info.rtt :=
    rttSummary_of_foldlM (by simpa [World.RttLogged, World.rttOf, hinfo] using hlogged)
  cases hrtt : info.rtt with
  | none =>
      rw [hrtt] at hsum
      exact ⟨iff_of_true rfl hsum, fun _ h => nomatch h⟩
  | some r =>
      rw [hrtt] at hsum
      refine ⟨iff_of_false nofun ?_, fun r' hr' => Option.some.inj hr' ▸ hsum⟩
      obtain ⟨first, rest, hlog, -⟩ := hsum
      simp [hlog]

/-- A record whose first `set_rtt` is a failure, which is dropped, followed by two samples and a
failure. -/
theorem rtt_replays_samples_failure_first :
    ∃ ops w info,
      ops = [.addAddress ⟨1⟩ [.ip4 ⟨1, 1, 1, 1⟩, .tcp 3333] .mdns, .setRtt ⟨1⟩ none,
        .setRtt ⟨1⟩ (some ⟨0, 20, by decide, by decide⟩),
        .setRtt ⟨1⟩ (some ⟨0, 40, by decide, by decide⟩), .setRtt ⟨1⟩ none] ∧
      (World.new ⟨0⟩ false true).run ops = some w ∧ w.book.peers.lookup ⟨1⟩ = some info ∧
      let log := (World.new ⟨0⟩ false true).rttLog ⟨1⟩ ops []
      (info.rtt = none ↔ log.filterMap id = []) ∧
      ∀ r, info.rtt = some r → ∃ first rest, log.filterMap id = first :: rest ∧
        r.current = (first :: rest).getLast (List.cons_ne_nil _ _) ∧
        r.decay3.asNanos = rest.foldl (fun d s => Rtt.decay3Step d s.asNanos) first.asNanos ∧
        r.decay10.asNanos = rest.foldl (fun d s => Rtt.decay10Step d s.asNanos) first.asNanos ∧
        r.failures.toNat = trailingNones log % 2 ^ 32 := by
  refine ⟨_, ?w, ?info, rfl, ?run, ?lookup, rtt_replays_samples ?run ⟨1⟩ ?lookup⟩
  case run => exact rfl
  case lookup => exact rfl

end IpfsEmbed.Net
