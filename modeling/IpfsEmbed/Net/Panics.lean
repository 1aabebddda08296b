import IpfsEmbed.Net.RttHistory

/-!
# Where the book panics

`World.step` is a release build, where `failures += 1` in `Rtt::register_failure` wraps; a debug
build checks it, and `World.stepDebug` is that build. In both the operators of `Duration` panic
on overflow. `step_panics_iff` says exactly where each build panics: a release build only at a
`set_rtt(P, Some(d))` on a record whose estimator has `7 · decay_3`, `3 · d` or `9 · decay_10`
past `Duration::MAX` (the two additions of `register` never overflow on their own,
`register_eq_none_iff`), and a debug build there and at a `set_rtt(P, None)` on an estimator
whose `failures` is `u32::MAX`. `run_never_panics` is the consequence for whole runs: from
`AddressBook::new`, a run whose samples are at most `Duration::MAX / 9` never panics in a release
build, because every estimator keeps both averages at most that bound (`EstimatorsBounded`, kept
by every step); and a debug build runs it to the same state when no stretch of it without a
sample for a peer reports `2^32` failures of that peer (`runDebug_eq_run`, over
`FailuresWithin`).
-/

namespace IpfsEmbed.Net

/-- `register` panics exactly when one of its three products passes `Duration::MAX`: the sums of
the truncated quotients stay below the bound whenever the products do. -/
theorem Rtt.register_eq_none_iff (r : Rtt) (d : Duration) :
    r.register d = none ↔
      Duration.nanosBound ≤ r.decay3.asNanos * 7 ∨ Duration.nanosBound ≤ d.asNanos * 3 ∨
        Duration.nanosBound ≤ r.decay10.asNanos * 9 := by
  have := d.asNanos_lt
  rw [register_eq]
  split_ifs with h
  · simp only [reduceCtorEq, false_iff]; omega
  · simp only [decay3Step, decay10Step] at h
    simp only [true_iff]; omega

/-- `set_rtt`'s update panics only when it registers a sample on an estimator that `register`
cannot take it on. -/
theorem updateRtt_eq_none {rtt : Option Rtt} {sample : Option Duration} :
    updateRtt rtt sample = none ↔ ∃ d r, sample = some d ∧ rtt = some r ∧ r.register d = none := by
  cases sample <;> cases rtt <;> simp [updateRtt]

namespace World

variable {w w' : World} {op : Op}

/-- A step panics only in a `set_rtt(P, Some(d))` whose `register` panics. -/
theorem step_eq_none (h : w.step op = none) :
    ∃ P d info r, op = .setRtt P (some d) ∧ w.book.peers.lookup P = some info ∧
      info.rtt = some r ∧ r.register d = none := by
  cases op with
  | setRtt P rtt =>
      change w.setRtt P rtt = none at h
      unfold setRtt at h
      split at h
      · rename_i info hinfo
        obtain ⟨d, r, rfl, hr, hreg⟩ := updateRtt_eq_none.mp (Option.map_eq_none'.mp h)
        exact ⟨P, d, info, r, rfl, hinfo, hr, hreg⟩
      · cases h
  | _ => cases h

/-- A release step panics exactly at a `set_rtt(P, Some(d))` whose `register` panics. -/
theorem step_eq_none_iff :
    w.step op = none ↔ ∃ P d info r, op = .setRtt P (some d) ∧
      w.book.peers.lookup P = some info ∧ info.rtt = some r ∧
      (Duration.nanosBound ≤ r.decay3.asNanos * 7 ∨ Duration.nanosBound ≤ d.asNanos * 3 ∨
        Duration.nanosBound ≤ r.decay10.asNanos * 9) := by
  constructor
  · intro h
    obtain ⟨P, d, info, r, hop, hinfo, hr, hreg⟩ := step_eq_none h
    exact ⟨P, d, info, r, hop, hinfo, hr, (Rtt.register_eq_none_iff r d).mp hreg⟩
  · rintro ⟨P, d, info, r, rfl, hinfo, hr, hover⟩
    simp [step, setRtt, hinfo, updateRtt, hr, (Rtt.register_eq_none_iff r d).mpr hover]

end World

/-! ## The debug build -/

/-- `set_rtt`'s update in a debug build, where `register_failure` is checked. -/
def updateRttDebug (rtt : Option Rtt) (sample : Option Duration) : Option (Option Rtt) :=
  match sample, rtt with
  | none, some old => old.registerFailureChecked.map some
  | sample, rtt => updateRtt rtt sample

namespace World

variable {w w' : World} {op : Op}

/-- `set_rtt` in a debug build. -/
def setRttDebug (w : World) (peerId : PeerId) (rtt : Option Duration) : Option World :=
  match w.book.peers.lookup peerId with
  | some info =>
      (updateRttDebug info.rtt rtt).map fun updated =>
        let info := { info with rtt := updated }
        ({ w with book := { w.book with peers := w.book.peers.insert peerId info } }).notify
          (.newInfo peerId)
  | none => some w

/-- One operation in a debug build: only `set_rtt` differs from the release build. -/
def stepDebug (w : World) : Op → Option World
  | .setRtt peerId rtt => w.setRttDebug peerId rtt
  | op => w.step op

/-- Perform the operations in order in a debug build, stopping at the first panic. -/
def runDebug (w : World) : List Op → Option World
  | [] => some w
  | op :: ops => w.stepDebug op >>= fun w => w.runDebug ops

/-- The operation reports a failure to an estimator whose `failures` is `u32::MAX`. -/
def overflowsFailures (w : World) : Op → Bool
  | .setRtt peerId none =>
      match w.book.peers.lookup peerId with
      | some info =>
          match info.rtt with
          | some r => r.failures == 4294967295
          | none => false
      | none => false
  | _ => false

/-- `overflowsFailures` as a statement about the record of the peer. -/
theorem overflowsFailures_iff : w.overflowsFailures op = true ↔
    ∃ P info r, op = .setRtt P none ∧ w.book.peers.lookup P = some info ∧ info.rtt = some r ∧
      r.failures = 4294967295 := by
  refine ⟨fun h => ?_, fun ⟨P, info, r, hop, hinfo, hr, hmax⟩ => ?_⟩
  · cases op with
    | setRtt P rtt =>
        cases rtt with
        | some d => cases h
        | none =>
            simp only [overflowsFailures] at h
            split at h
            · rename_i info hinfo
              split at h
              · exact ⟨P, info, _, rfl, hinfo, ‹_›, beq_iff_eq.mp h⟩
              · cases h
            · cases h
    | _ => cases h
  · subst hop
    simp [overflowsFailures, hinfo, hr, hmax]

/-- A debug step is the release step, but for the panic of a failure count that overflows. -/
theorem stepDebug_eq (w : World) (op : Op) :
    w.stepDebug op = if w.overflowsFailures op then none else w.step op := by
  cases op with
  | setRtt P rtt =>
      cases rtt with
      | some d => rfl
      | none =>
          simp only [stepDebug, step, setRttDebug, setRtt, overflowsFailures]
          cases w.book.peers.lookup P with
          | none => rfl
          | some info =>
              obtain ⟨_, _, _, _, _ | r⟩ := info
              · rfl
              · by_cases hmax : r.failures = 4294967295 <;>
                  simp [updateRttDebug, updateRtt, Rtt.registerFailureChecked_eq, hmax]
  | _ => rfl

/-- A step of the book panics, in a release build, exactly at a `set_rtt(P, Some(d))` for a
recorded `P` whose estimator `r` has `7 · decay_3(r)`, `3 · d` or `9 · decay_10(r)` past
`Duration::MAX`, in nanoseconds; in a debug build, exactly there and at a `set_rtt(P, None)` for
a recorded `P` whose estimator has `failures = u32::MAX`. -/
theorem step_panics_iff :
    (w.step op = none ↔ ∃ P d info r, op = .setRtt P (some d) ∧
      w.book.peers.lookup P = some info ∧ info.rtt = some r ∧
      (Duration.nanosBound ≤ r.decay3.asNanos * 7 ∨ Duration.nanosBound ≤ d.asNanos * 3 ∨
        Duration.nanosBound ≤ r.decay10.asNanos * 9)) ∧
    (w.stepDebug op = none ↔ w.step op = none ∨ ∃ P info r, op = .setRtt P none ∧
      w.book.peers.lookup P = some info ∧ info.rtt = some r ∧ r.failures = 4294967295) := by
  refine ⟨step_eq_none_iff, ?_⟩
  rw [stepDebug_eq, ← overflowsFailures_iff]
  cases w.overflowsFailures op <;> simp

/-- A first sample of `Duration::MAX` and a second one panic: `7 · decay_3` overflows. -/
example :
    (World.new ⟨0⟩ false true).run [.addAddress ⟨1⟩ [.ip4 ⟨1, 1, 1, 1⟩] .mdns,
      .setRtt ⟨1⟩ (some Duration.MAX), .setRtt ⟨1⟩ (some Duration.MAX)] = none := rfl

/-! ## Runs with bounded samples -/

/-- Every estimator keeps both averages at most `Duration::MAX / 9`. -/
def EstimatorsBounded (w : World) : Prop :=
  ∀ P r, w.rttOf P = some (some r) → Rtt.DecayBounds 0 maxSample r

end World

/-- The operation hands `set_rtt` no sample above `Duration::MAX / 9`. -/
def Op.sampleWithin : Op → Bool
  | .setRtt _ (some d) => decide (d.asNanos ≤ maxSample)
  | _ => true

theorem Op.sample_le_of_rttSample {op : Op} {P : PeerId} {d : Duration}
    (hs : op.rttSample P = some (some d)) (hop : op.sampleWithin = true) :
    d.asNanos ≤ maxSample := by
  cases op with
  | setRtt Q rtt =>
      simp only [Op.rttSample, Option.ite_none_right_eq_some, Option.some.injEq] at hs
      obtain ⟨-, rfl⟩ := hs
      exact of_decide_eq_true hop
  | _ => cases hs

namespace World

variable {w w' : World} {op : Op}

theorem estimatorsBounded_new (localPeerId : PeerId) (enableLoopback pruneAddresses : Bool) :
    (World.new localPeerId enableLoopback pruneAddresses).EstimatorsBounded :=
  fun _ _ h => nomatch h

/-- A step with a sample at most `Duration::MAX / 9` keeps every estimator within the bound. -/
theorem estimatorsBounded_step (hw : w.EstimatorsBounded) (hop : op.sampleWithin = true)
    (h : w.step op = some w') : w'.EstimatorsBounded := by
  intro P r hr
  have hP : P ∈ w'.book.peers := by
    by_contra hP; rw [rttOf_eq_none.mpr hP] at hr; cases hr
  rcases rttOf_step h hP with ⟨hsame, -⟩ | ⟨-, hnew, -⟩ | ⟨rtt, sample, updated, hrtt, hs, hup, hnew⟩
  · exact hw P r (hsame ▸ hr)
  · rw [hnew] at hr; cases hr
  · rw [hnew] at hr; cases hr
    cases sample with
    | some d =>
        have hd := Op.sample_le_of_rttSample hs hop
        cases rtt with
        | some old =>
            obtain ⟨r', hr', ⟨⟩⟩ := Option.map_eq_some'.mp hup
            exact (hw P old hrtt).register (Nat.zero_le _) hd hr'
        | none =>
            cases hup
            exact .new (Nat.zero_le _) hd
    | none =>
        cases rtt with
        | some old => cases hup; exact (hw P old hrtt).registerFailure
        | none => cases hup

/-- Within the bound no step panics. -/
theorem step_isSome_of_bounded (hw : w.EstimatorsBounded) (hop : op.sampleWithin = true) :
    ∃ w', w.step op = some w' := by
  cases hstep : w.step op with
  | some w' => exact ⟨w', rfl⟩
  | none =>
      obtain ⟨P, d, info, r, rfl, hinfo, hr, hreg⟩ := step_eq_none hstep
      have hbound := hw P r (by simp [rttOf, hinfo, hr])
      obtain ⟨r', hr'⟩ := hbound.register_isSome (of_decide_eq_true hop)
      cases hreg.symm.trans hr'

/-- From a state whose estimators are within the bound, a run with every sample at most
`Duration::MAX / 9` does not panic and keeps the estimators within the bound. -/
theorem run_isSome_of_bounded : ∀ {ops : List Op} {w : World}, w.EstimatorsBounded →
    (∀ op ∈ ops, op.sampleWithin = true) → ∃ w', w.run ops = some w' ∧ w'.EstimatorsBounded
  | [], w, hw, _ => ⟨w, rfl, hw⟩
  | op :: ops, w, hw, hops => by
      obtain ⟨v, hv⟩ := step_isSome_of_bounded hw (hops op (List.mem_cons_self _ _))
      obtain ⟨w', hrun, hw'⟩ := run_isSome_of_bounded
        (estimatorsBounded_step hw (hops op (List.mem_cons_self _ _)) hv)
        fun o ho => hops o (List.mem_cons_of_mem _ ho)
      exact ⟨w', by simp [hv, hrun], hw'⟩

end World

/-! ## Runs of a debug build -/

/-- The operation is a `set_rtt(peer, None)`. -/
def Op.reportsFailure (peer : PeerId) : Op → Bool
  | .setRtt peerId none => peerId = peer
  | _ => false

/-- The operation is a `set_rtt(peer, Some(_))`. -/
def Op.reportsSample (peer : PeerId) : Op → Bool
  | .setRtt peerId (some _) => peerId = peer
  | _ => false

/-- The failures reported for each peer since its last sample, once `op` is performed. -/
def Op.nextStreak (op : Op) (streak : PeerId → Nat) (peer : PeerId) : Nat :=
  if op.reportsSample peer then 0 else streak peer + if op.reportsFailure peer then 1 else 0

theorem Op.nextStreak_eq (op : Op) (streak : PeerId → Nat) (P : PeerId) :
    op.nextStreak streak P =
      match op.rttSample P with
      | some (some _) => 0
      | some none => streak P + 1
      | none => streak P := by
  cases op with
  | setRtt Q rtt =>
      by_cases hQ : Q = P <;> cases rtt <;>
        simp [nextStreak, reportsSample, reportsFailure, rttSample, hQ]
  | _ => simp [nextStreak, reportsSample, reportsFailure, rttSample]

namespace World

variable {w w' : World} {op : Op} {streak : PeerId → Nat}

/-- Every estimator counts at most the failures `streak` gives its peer. -/
def FailuresWithin (streak : PeerId → Nat) (w : World) : Prop :=
  ∀ P r, w.rttOf P = some (some r) → r.failures.toNat ≤ streak P

/-- A sample resets the count of an estimator, and a failure adds one to it. -/
theorem failuresWithin_step (hw : FailuresWithin streak w) (h : w.step op = some w') :
    FailuresWithin (op.nextStreak streak) w' := by
  intro P r hr
  have hP : P ∈ w'.book.peers := by
    by_contra hP; rw [rttOf_eq_none.mpr hP] at hr; cases hr
  rw [Op.nextStreak_eq]
  rcases rttOf_step h hP with ⟨hsame, hnone⟩ | ⟨-, hnew, -⟩ | ⟨rtt, sample, updated, hrtt, hs, hup, hnew⟩
  · rw [hnone]; exact hw P r (hsame ▸ hr)
  · rw [hnew] at hr; cases hr
  · rw [hnew] at hr; cases hr
    rw [hs]
    cases sample with
    | some d =>
        cases rtt with
        | some old =>
            obtain ⟨r', hr', ⟨⟩⟩ := Option.map_eq_some'.mp hup
            simp [(Rtt.register_spec hr').2.2.2]
        | none => cases hup; simp [Rtt.new]
    | none =>
        cases rtt with
        | some old =>
            cases hup
            have hold := hw P old hrtt
            show (old.failures.toNat + 1) % 2 ^ 32 ≤ streak P + 1
            omega
        | none => cases hup

/-- A failure report on an estimator whose count `streak` keeps below `u32::MAX` takes the same
step in both builds, and so does every other operation. -/
theorem stepDebug_eq_step (hw : FailuresWithin streak w)
    (hbound : ∀ P, op = .setRtt P none → streak P + 1 < 2 ^ 32) :
    w.stepDebug op = w.step op := by
  rw [stepDebug_eq, if_neg]
  intro hov
  obtain ⟨P, info, r, rfl, hinfo, hr, hmax⟩ := overflowsFailures_iff.mp hov
  have hle := hw P r (by simp [rttOf, hinfo, hr])
  rw [hmax, show (4294967295 : UInt32).toNat = 4294967295 from rfl] at hle
  have hlt := hbound P rfl
  omega

/-- The bound on the stretches at the start of a run carries over to the rest of the run, with
the streak moved by its first operation. -/
theorem nextStreak_bound {P : PeerId} {ops stretch : List Op}
    (hstretches : ∀ stretch, stretch <:+: op :: ops →
      (∀ o ∈ stretch, o.reportsSample P = false) → stretch.countP (Op.reportsFailure P) < 2 ^ 32)
    (hstart : ∀ stretch, stretch <+: op :: ops → (∀ o ∈ stretch, o.reportsSample P = false) →
      streak P + stretch.countP (Op.reportsFailure P) < 2 ^ 32)
    (hs : stretch <+: ops) (hquiet : ∀ o ∈ stretch, o.reportsSample P = false) :
    op.nextStreak streak P + stretch.countP (Op.reportsFailure P) < 2 ^ 32 := by
  unfold Op.nextStreak
  by_cases hsample : op.reportsSample P = true
  · rw [if_pos hsample, Nat.zero_add]
    exact hstretches stretch (hs.isInfix.trans (List.suffix_cons _ _).isInfix) hquiet
  · have hmore := hstart (op :: stretch) ((List.prefix_cons_inj op).mpr hs)
      (List.forall_mem_cons.mpr ⟨Bool.eq_false_iff.mpr hsample, hquiet⟩)
    rw [if_neg hsample]
    rw [List.countP_cons] at hmore
    split_ifs at hmore ⊢ <;> omega

/-- A debug build runs as the release build as long as no estimator reaches `u32::MAX`
failures: from a state whose estimators count at most `streak`, along a run in which every
stretch without a sample of a peer reports fewer than `2^32` failures of it, and every such
stretch at the start fewer than `2^32` less the count `streak` gives. -/
theorem runDebug_eq_run : ∀ {ops : List Op} {w : World} {streak : PeerId → Nat},
    FailuresWithin streak w →
    (∀ P (stretch : List Op), stretch <:+: ops → (∀ op ∈ stretch, op.reportsSample P = false) →
      stretch.countP (Op.reportsFailure P) < 2 ^ 32) →
    (∀ P (stretch : List Op), stretch <+: ops → (∀ op ∈ stretch, op.reportsSample P = false) →
      streak P + stretch.countP (Op.reportsFailure P) < 2 ^ 32) →
    w.runDebug ops = w.run ops
  | [], _, _, _, _, _ => rfl
  | op :: ops, w, streak, hw, hstretches, hstart => by
      have hstep : w.stepDebug op = w.step op := stepDebug_eq_step hw fun P hop => by
        subst hop
        simpa [Op.reportsFailure] using hstart P _ ((List.prefix_cons_inj _).mpr List.nil_prefix)
          (by simp [Op.reportsSample])
      show (w.stepDebug op).bind _ = (w.step op).bind _
      rw [hstep]
      cases hv : w.step op with
      | none => rfl
      | some v =>
          exact runDebug_eq_run (failuresWithin_step hw hv)
            (fun P stretch hs => hstretches P stretch (hs.trans (List.suffix_cons _ _).isInfix))
            fun P _ hs hquiet => nextStreak_bound (hstretches P) (hstart P) hs hquiet

/-- A new book has no estimator. -/
theorem failuresWithin_new (streak : PeerId → Nat) (localPeerId : PeerId)
    (enableLoopback pruneAddresses : Bool) :
    (World.new localPeerId enableLoopback pruneAddresses).FailuresWithin streak :=
  fun _ _ h => nomatch h

end World

/-- For every run from `AddressBook::new` in which every sample given to `set_rtt` is at most
`Duration::MAX / 9`: a release build runs it to the end without a panic, and at its end every
estimator has `decay_3` and `decay_10` at most `Duration::MAX / 9`; a debug build runs it to the
same state when no stretch of the run without a `set_rtt(P, Some(_))` holds `2^32`
`set_rtt(P, None)` calls, for any peer `P`. -/
theorem run_never_panics (localPeerId : PeerId) (enableLoopback pruneAddresses : Bool)
    (ops : List Op) (hops : ∀ op ∈ ops, op.sampleWithin = true) :
    ∃ w, (World.new localPeerId enableLoopback pruneAddresses).run ops = some w ∧
      (∀ P r, w.rttOf P = some (some r) →
        r.decay3.asNanos ≤ maxSample ∧ r.decay10.asNanos ≤ maxSample) ∧
      ((∀ P (stretch : List Op), stretch <:+: ops →
          (∀ op ∈ stretch, op.reportsSample P = false) →
          stretch.countP (Op.reportsFailure P) < 2 ^ 32) →
        (World.new localPeerId enableLoopback pruneAddresses).runDebug ops = some w) := by
  obtain ⟨w, hrun, hw⟩ :=
    World.run_isSome_of_bounded (World.estimatorsBounded_new _ _ _) hops
  refine ⟨w, hrun, fun P r hr => ⟨(hw P r hr).decay3_high, (hw P r hr).decay10_high⟩,
    fun hfew => ?_⟩
  rw [← hrun]
  exact World.runDebug_eq_run (World.failuresWithin_new (fun _ => 0) _ _ _) hfew
    fun P stretch hs hquiet => by simpa using hfew P stretch hs.isInfix hquiet

/-- A record that gets two samples and a failure. -/
theorem run_never_panics_two_samples :
    (∀ op ∈ [.addAddress ⟨1⟩ [.ip4 ⟨1, 1, 1, 1⟩, .tcp 3333] .mdns,
        .setRtt ⟨1⟩ (some ⟨0, 20, by decide, by decide⟩),
        .setRtt ⟨1⟩ (some ⟨1, 40, by decide, by decide⟩), .setRtt ⟨1⟩ none],
        Op.sampleWithin op = true) ∧
      (∀ P (stretch : List Op), stretch <:+: [.addAddress ⟨1⟩ [.ip4 ⟨1, 1, 1, 1⟩, .tcp 3333] .mdns,
          .setRtt ⟨1⟩ (some ⟨0, 20, by decide, by decide⟩),
          .setRtt ⟨1⟩ (some ⟨1, 40, by decide, by decide⟩), .setRtt ⟨1⟩ none] →
        (∀ op ∈ stretch, op.reportsSample P = false) →
        stretch.countP (Op.reportsFailure P) < 2 ^ 32) ∧
      ∃ w, (World.new ⟨0⟩ false true).run [.addAddress ⟨1⟩ [.ip4 ⟨1, 1, 1, 1⟩, .tcp 3333] .mdns,
          .setRtt ⟨1⟩ (some ⟨0, 20, by decide, by decide⟩),
          .setRtt ⟨1⟩ (some ⟨1, 40, by decide, by decide⟩), .setRtt ⟨1⟩ none] = some w ∧
        (∀ P r, w.rttOf P = some (some r) →
          r.decay3.asNanos ≤ maxSample ∧ r.decay10.asNanos ≤ maxSample) ∧
        ((∀ P (stretch : List Op), stretch <:+: [.addAddress ⟨1⟩ [.ip4 ⟨1, 1, 1, 1⟩, .tcp 3333] .mdns,
            .setRtt ⟨1⟩ (some ⟨0, 20, by decide, by decide⟩),
            .setRtt ⟨1⟩ (some ⟨1, 40, by decide, by decide⟩), .setRtt ⟨1⟩ none] →
            (∀ op ∈ stretch, op.reportsSample P = false) →
            stretch.countP (Op.reportsFailure P) < 2 ^ 32) →
          (World.new ⟨0⟩ false true).runDebug [.addAddress ⟨1⟩ [.ip4 ⟨1, 1, 1, 1⟩, .tcp 3333] .mdns,
            .setRtt ⟨1⟩ (some ⟨0, 20, by decide, by decide⟩),
            .setRtt ⟨1⟩ (some ⟨1, 40, by decide, by decide⟩), .setRtt ⟨1⟩ none] = some w) :=
  have hops : ∀ op ∈ [.addAddress ⟨1⟩ [.ip4 ⟨1, 1, 1, 1⟩, .tcp 3333] .mdns,
      .setRtt ⟨1⟩ (some ⟨0, 20, by decide, by decide⟩),
      .setRtt ⟨1⟩ (some ⟨1, 40, by decide, by decide⟩), .setRtt ⟨1⟩ none],
      Op.sampleWithin op = true := by decide
  ⟨hops, fun _ _ hs _ => lt_of_le_of_lt (List.countP_le_length _)
      (lt_of_le_of_lt hs.length_le (by decide)),
    run_never_panics ⟨0⟩ false true _ hops⟩

end IpfsEmbed.Net
