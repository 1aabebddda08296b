import IpfsEmbed.Net.Rtt
import Mathlib.Logic.Function.Iterate
import Mathlib.Order.Monotone.Basic

/-!
# The decaying averages of `Rtt`

What `Rtt::register` does to `decay_3` and `decay_10` over many calls, in nanoseconds, where
`register_eq` turns its `Duration` operators into `decay3Step` and `decay10Step`.
`register_decays_within_samples` is the bound over any sequence of calls: with every sample at
most `Duration::MAX / 9` nothing overflows, and the averages stay between the smallest sample
less 6 ns (18 ns for `decay_10`) and the largest sample. `repeated_register_settles` is the
behaviour under a constant sample `s`: the averages stop changing after finitely many calls, a
few nanoseconds below `s`, and reach `s` itself only when `s` is a multiple of 10 ns and they
start at or above it.
-/

namespace IpfsEmbed.Net

/-- One call on an `Rtt`: `register(sample)` or `register_failure()`. -/
inductive RttCall where
  | register (sample : Duration)
  | registerFailure

/-- The sample of a call, if it registers one. -/
def RttCall.sample : RttCall → Option Duration
  | .register sample => some sample
  | .registerFailure => none

/-- `Duration::MAX / 9` in nanoseconds: the largest sample the bounds below admit. -/
def maxSample : Nat := Duration.MAX.asNanos / 9

/-- `maxSample` is what `Duration::MAX / 9` computes. -/
theorem div_nine_MAX : (Duration.MAX.div 9).map Duration.asNanos = some maxSample := by
  simp [Duration.div_eq, maxSample]

namespace Rtt

/-- Perform the calls in order; `none` is a panic of `register`. -/
def run : Rtt → List RttCall → Option Rtt
  | r, [] => some r
  | r, .register sample :: calls => r.register sample >>= fun r => r.run calls
  | r, .registerFailure :: calls => r.registerFailure.run calls

/-! ## The two formulas -/

theorem decay3Step_le {decay current high : Nat} (hd : decay ≤ high) (hc : current ≤ high) :
    decay3Step decay current ≤ high := by
  unfold decay3Step; omega

theorem decay10Step_le {decay current high : Nat} (hd : decay ≤ high) (hc : current ≤ high) :
    decay10Step decay current ≤ high := by
  unfold decay10Step; omega

/-- The two truncations of `decay_3` lose less than 2 ns, so the loss below the smallest
sample settles at 6 ns. -/
theorem le_decay3Step {decay current low : Nat} (hd : low ≤ decay + 6) (hc : low ≤ current) :
    low ≤ decay3Step decay current + 6 := by
  unfold decay3Step; omega

theorem le_decay10Step {decay current low : Nat} (hd : low ≤ decay + 18) (hc : low ≤ current) :
    low ≤ decay10Step decay current + 18 := by
  unfold decay10Step; omega

/-! ## Bounds along any sequence of calls -/

/-- Both averages lie between `low` less the truncation loss and `high`. -/
structure DecayBounds (low high : Nat) (r : Rtt) : Prop where
  decay3_low : low ≤ r.decay3.asNanos + 6
  decay3_high : r.decay3.asNanos ≤ high
  decay10_low : low ≤ r.decay10.asNanos + 18
  decay10_high : r.decay10.asNanos ≤ high

namespace DecayBounds

variable {low high : Nat} {r r' : Rtt} {sample : Duration}

theorem new (hlow : low ≤ sample.asNanos) (hhigh : sample.asNanos ≤ high) :
    DecayBounds low high (Rtt.new sample) :=
  ⟨by simp [Rtt.new]; omega, hhigh, by simp [Rtt.new]; omega, hhigh⟩

theorem register (hr : DecayBounds low high r) (hlow : low ≤ sample.asNanos)
    (hhigh : sample.asNanos ≤ high) (h : r.register sample = some r') : DecayBounds low high r' := by
  obtain ⟨-, h3, h10, -⟩ := register_spec h
  exact ⟨h3 ▸ le_decay3Step hr.decay3_low hlow, h3 ▸ decay3Step_le hr.decay3_high hhigh,
    h10 ▸ le_decay10Step hr.decay10_low hlow, h10 ▸ decay10Step_le hr.decay10_high hhigh⟩

theorem registerFailure (hr : DecayBounds low high r) : DecayBounds low high r.registerFailure :=
  ⟨hr.1, hr.2, hr.3, hr.4⟩

/-- With both averages and the sample at most `Duration::MAX / 9`, no product or sum of
`register` overflows. -/
theorem register_isSome (hr : DecayBounds 0 maxSample r) (hs : sample.asNanos ≤ maxSample) :
    ∃ r', r.register sample = some r' := by
  have hmax : Duration.MAX.asNanos < Duration.nanosBound := Duration.MAX.asNanos_lt
  have h3 := hr.decay3_high; have h10 := hr.decay10_high
  unfold maxSample at h3 h10 hs
  exact Rtt.register_isSome ⟨by omega, by omega,
    by unfold decay3Step; omega, by omega, by unfold decay10Step; omega⟩

/-- Along calls whose samples lie in `[low, high]` and below `Duration::MAX / 9`, from an `Rtt`
within both bounds, no call panics and the bounds hold at the end. -/
theorem run : ∀ (calls : List RttCall) {r : Rtt}, DecayBounds low high r →
    DecayBounds 0 maxSample r →
    (∀ s ∈ calls.filterMap RttCall.sample, low ≤ s.asNanos ∧ s.asNanos ≤ high ∧
      s.asNanos ≤ maxSample) →
    ∃ r', r.run calls = some r' ∧ DecayBounds low high r'
  | [], r, hr, _, _ => ⟨r, rfl, hr⟩
  | .registerFailure :: calls, _, hr, hmax, hs =>
      run calls hr.registerFailure hmax.registerFailure hs
  | .register sample :: calls, _, hr, hmax, hs => by
      simp only [List.filterMap_cons, RttCall.sample, List.mem_cons, forall_eq_or_imp] at hs
      obtain ⟨⟨hlow, hhigh, hsmax⟩, hs⟩ := hs
      obtain ⟨r', hr'⟩ := hmax.register_isSome hsmax
      obtain ⟨r'', hrun, hr''⟩ :=
        run calls (hr.register hlow hhigh hr') (hmax.register (Nat.zero_le _) hsmax hr') hs
      exact ⟨r'', by simp [Rtt.run, hr', hrun], hr''⟩

/-- Every `Rtt` reached from `Rtt::new(s0)` by calls with samples at most `Duration::MAX / 9`
keeps both averages at most `Duration::MAX / 9`. -/
theorem of_run {s0 : Duration} {calls : List RttCall} (hrun : (Rtt.new s0).run calls = some r)
    (hmax : ∀ s ∈ s0 :: calls.filterMap RttCall.sample, s.asNanos ≤ maxSample) :
    DecayBounds 0 maxSample r := by
  have h0 := hmax s0 (List.mem_cons_self _ _)
  obtain ⟨r', hrun', hr'⟩ := DecayBounds.run calls (.new (Nat.zero_le _) h0) (.new (Nat.zero_le _) h0)
    fun s hs => ⟨Nat.zero_le _, hmax s (List.mem_cons_of_mem _ hs), hmax s (List.mem_cons_of_mem _ hs)⟩
  obtain rfl := Option.some.inj (hrun.symm.trans hrun')
  exact hr'

end DecayBounds

end Rtt

/-- For every sequence of `register` and `register_failure` calls after `Rtt::new(s0)` in which
every sample, `s0` included, is at most `Duration::MAX / 9`, and every lower bound `m` and upper
bound `M` of these samples (so in particular the smallest and the largest): no call panics, and
in nanoseconds `m - 6 ≤ decay_3 ≤ M` and `m - 18 ≤ decay_10 ≤ M`. -/
theorem register_decays_within_samples (s0 : Duration) (calls : List RttCall) {m M : Nat}
    (hmax : ∀ s ∈ s0 :: calls.filterMap RttCall.sample, s.asNanos ≤ maxSample)
    (hbounds : ∀ s ∈ s0 :: calls.filterMap RttCall.sample, m ≤ s.asNanos ∧ s.asNanos ≤ M) :
    ∃ r, (Rtt.new s0).run calls = some r ∧
      m ≤ r.decay3.asNanos + 6 ∧ r.decay3.asNanos ≤ M ∧
      m ≤ r.decay10.asNanos + 18 ∧ r.decay10.asNanos ≤ M := by
  have h0 := hbounds s0 (List.mem_cons_self _ _)
  obtain ⟨r, hrun, hr⟩ := Rtt.DecayBounds.run calls (Rtt.DecayBounds.new h0.1 h0.2)
    (Rtt.DecayBounds.new (Nat.zero_le _) (hmax s0 (List.mem_cons_self _ _)))
    fun s hs => ⟨(hbounds s (List.mem_cons_of_mem _ hs)).1,
      (hbounds s (List.mem_cons_of_mem _ hs)).2, hmax s (List.mem_cons_of_mem _ hs)⟩
  exact ⟨r, hrun, hr.decay3_low, hr.decay3_high, hr.decay10_low, hr.decay10_high⟩

theorem register_decays_within_samples_ten_twenty :
    (∀ s ∈ [(⟨0, 10, by decide, by decide⟩ : Duration), ⟨0, 20, by decide, by decide⟩],
      s.asNanos ≤ maxSample) ∧
    (∀ s ∈ [(⟨0, 10, by decide, by decide⟩ : Duration), ⟨0, 20, by decide, by decide⟩],
      10 ≤ s.asNanos ∧ s.asNanos ≤ 20) ∧
    ∃ r, (Rtt.new ⟨0, 10, by decide, by decide⟩).run
        [.register ⟨0, 20, by decide, by decide⟩, .registerFailure] = some r ∧
      10 ≤ r.decay3.asNanos + 6 ∧ r.decay3.asNanos ≤ 20 ∧
      10 ≤ r.decay10.asNanos + 18 ∧ r.decay10.asNanos ≤ 20 :=
  ⟨by decide, by decide, register_decays_within_samples _ _ (by decide) (by decide)⟩

/-! ## Repeating one sample -/

namespace Rtt

/-- `k` calls of `register(s)` in a row, for a sample and averages at most `Duration::MAX / 9`:
none panics, and each average has gone through its formula `k` times. -/
theorem run_replicate_register {s : Duration} (hs : s.asNanos ≤ maxSample) :
    ∀ (k : Nat) {r : Rtt}, DecayBounds 0 maxSample r →
    ∃ r', r.run (List.replicate k (.register s)) = some r' ∧
      r'.decay3.asNanos = (decay3Step · s.asNanos)^[k] r.decay3.asNanos ∧
      r'.decay10.asNanos = (decay10Step · s.asNanos)^[k] r.decay10.asNanos
  | 0, r, _ => ⟨r, rfl, rfl, rfl⟩
  | k + 1, r, hr => by
    obtain ⟨r₁, h₁⟩ := hr.register_isSome hs
    obtain ⟨-, h3, h10, -⟩ := register_spec h₁
    obtain ⟨r', hrun, h3', h10'⟩ :=
      run_replicate_register hs k (hr.register (Nat.zero_le _) hs h₁)
    refine ⟨r', by simp [List.replicate_succ, Rtt.run, h₁, hrun], ?_, ?_⟩
    · rw [h3', h3, Function.iterate_succ_apply]
    · rw [h10', h10, Function.iterate_succ_apply]

end Rtt

/-! ## Iterating a monotone step -/

section Settle

variable {f : Nat → Nat} {B d s c : Nat}

/-- A monotone step that does not go up from `d` reaches a fixed point. -/
theorem exists_fixed_iterate_of_le (hf : Monotone f) (d : Nat) (hd : f d ≤ d) :
    ∃ n, f (f^[n] d) = f^[n] d := by
  induction d using Nat.strong_induction_on with
  | _ d ih =>
    rcases Nat.lt_or_eq_of_le hd with hlt | heq
    · obtain ⟨n, hn⟩ := ih (f d) hlt (hf hd)
      exact ⟨n + 1, by rwa [Function.iterate_succ_apply]⟩
    · exact ⟨0, heq⟩

/-- A monotone step that keeps `[0, B]` and does not go down from `d ≤ B` reaches a fixed
point. -/
theorem exists_fixed_iterate_of_ge (hf : Monotone f) (hB : ∀ x ≤ B, f x ≤ B) :
    ∀ (k d : Nat), B - d = k → d ≤ B → d ≤ f d → ∃ n, f (f^[n] d) = f^[n] d
  | k, d, hk, hdB, hd => by
    rcases Nat.lt_or_eq_of_le hd with hlt | heq
    · have hfd := hB d hdB
      obtain ⟨n, hn⟩ := exists_fixed_iterate_of_ge hf hB (B - f d) (f d) rfl hfd (hf hd)
      exact ⟨n + 1, by rwa [Function.iterate_succ_apply]⟩
    · exact ⟨0, heq.symm⟩
termination_by k => k
decreasing_by omega

/-- A monotone step that keeps `[0, B]` reaches a fixed point from every `d ≤ B`. -/
theorem exists_fixed_iterate (hf : Monotone f) (hB : ∀ x ≤ B, f x ≤ B) (hd : d ≤ B) :
    ∃ n, f (f^[n] d) = f^[n] d :=
  (le_total (f d) d).elim (exists_fixed_iterate_of_le hf d)
    (exists_fixed_iterate_of_ge hf hB _ d rfl hd)

/-- From a fixed point on, the iterates do not move. -/
theorem iterate_eq_of_fixed {n k : Nat} (h : f (f^[n] d) = f^[n] d) (hk : n ≤ k) :
    f^[k] d = f^[n] d := by
  obtain ⟨j, rfl⟩ := Nat.exists_eq_add_of_le hk
  rw [Nat.add_comm, Function.iterate_add_apply, Function.iterate_fixed h]

/-- Where the iterates of a monotone step settle, when its fixed points lie in `[s - c, s]` and
it keeps `[0, s)`: they reach `s` exactly when `s` is a fixed point and `d` starts at or above
it. -/
theorem exists_settled (hf : Monotone f) (hB : ∀ x ≤ B, f x ≤ B) (hd : d ≤ B)
    (hfix : ∀ p, f p = p → p ≤ s ∧ s ≤ p + c) (hbelow : ∀ x < s, f x < s) :
    ∃ n p, (∀ k ≥ n, f^[k] d = p) ∧ p ≤ s ∧ s ≤ p + c ∧ (p = s ↔ f s = s ∧ s ≤ d) := by
  obtain ⟨n, hn⟩ := exists_fixed_iterate hf hB hd
  refine ⟨n, f^[n] d, fun k hk => iterate_eq_of_fixed hn hk, (hfix _ hn).1, (hfix _ hn).2,
    ⟨fun hp => ⟨hp ▸ hn, ?_⟩, fun ⟨hs, hsd⟩ => ?_⟩⟩
  · by_contra hds
    exact absurd hp (Nat.ne_of_lt (Function.Iterate.rec (· < s) hbelow (Nat.lt_of_not_le hds) n))
  · exact le_antisymm (hfix _ hn).1
      (Function.Iterate.rec (s ≤ ·) (fun x hx => hs.ge.trans (hf hx)) hsd n)

end Settle

namespace Rtt

/-! ## The two formulas under a constant sample -/

theorem decay3Step_mono (current : Nat) : Monotone (decay3Step · current) :=
  fun a b _ => show decay3Step a current ≤ decay3Step b current by unfold decay3Step; omega

theorem decay10Step_mono (current : Nat) : Monotone (decay10Step · current) :=
  fun a b _ => show decay10Step a current ≤ decay10Step b current by unfold decay10Step; omega

/-- A sample is a fixed point of `decay_3`'s formula exactly when it is a multiple of 10 ns:
otherwise the two truncations lose one nanosecond together. -/
theorem decay3Step_self_iff (s : Nat) : decay3Step s s = s ↔ s % 10 = 0 := by
  unfold decay3Step; omega

theorem decay10Step_self_iff (s : Nat) : decay10Step s s = s ↔ s % 10 = 0 := by
  unfold decay10Step; omega

/-- The fixed points of `decay_3`'s formula lie within 6 ns below the sample. -/
theorem decay3Step_fixed {p s : Nat} (h : decay3Step p s = p) : p ≤ s ∧ s ≤ p + 6 := by
  unfold decay3Step at h; omega

theorem decay10Step_fixed {p s : Nat} (h : decay10Step p s = p) : p ≤ s ∧ s ≤ p + 18 := by
  unfold decay10Step at h; omega

theorem decay3Step_lt {d s : Nat} (h : d < s) : decay3Step d s < s := by
  unfold decay3Step; omega

theorem decay10Step_lt {d s : Nat} (h : d < s) : decay10Step d s < s := by
  unfold decay10Step; omega

/-- Repeating the sample `s` on `decay_3 = d`: the average settles within 6 ns below `s`, and at
`s` itself exactly when `s` is a multiple of 10 ns and `d ≥ s`. -/
theorem decay3_settles (s d : Nat) : ∃ n p, (∀ k ≥ n, (decay3Step · s)^[k] d = p) ∧
    p ≤ s ∧ s ≤ p + 6 ∧ (p = s ↔ s % 10 = 0 ∧ s ≤ d) := by
  obtain ⟨n, p, hk, hle, hge, hiff⟩ := exists_settled (B := max d s) (decay3Step_mono s)
    (fun _ hx => decay3Step_le hx (le_max_right d s)) (le_max_left d s) (fun _ => decay3Step_fixed)
    (fun _ => decay3Step_lt)
  exact ⟨n, p, hk, hle, hge, by rw [hiff, decay3Step_self_iff]⟩

theorem decay10_settles (s d : Nat) : ∃ n p, (∀ k ≥ n, (decay10Step · s)^[k] d = p) ∧
    p ≤ s ∧ s ≤ p + 18 ∧ (p = s ↔ s % 10 = 0 ∧ s ≤ d) := by
  obtain ⟨n, p, hk, hle, hge, hiff⟩ := exists_settled (B := max d s) (decay10Step_mono s)
    (fun _ hx => decay10Step_le hx (le_max_right d s)) (le_max_left d s) (fun _ => decay10Step_fixed)
    (fun _ => decay10Step_lt)
  exact ⟨n, p, hk, hle, hge, by rw [hiff, decay10Step_self_iff]⟩

end Rtt

/-- For every `Rtt` reached from `Rtt::new(s0)` by calls with samples at most `Duration::MAX / 9`
and every sample `s` at most `Duration::MAX / 9`: no call of a run of `register(s)` panics, and
after finitely many calls `decay_3` and `decay_10` stop changing, at values `d3` and `d10` in
`[s - 6, s]` and `[s - 18, s]`. Each equals `s` exactly when `s` is a multiple of 10 ns and the
average starts at or above `s`. -/
theorem repeated_register_settles (s0 s : Duration) (calls : List RttCall) {r : Rtt}
    (hrun : (Rtt.new s0).run calls = some r)
    (hmax : ∀ x ∈ s :: s0 :: calls.filterMap RttCall.sample, x.asNanos ≤ maxSample) :
    ∃ n d3 d10, (∀ k, ∃ r', r.run (List.replicate k (.register s)) = some r' ∧
        (n ≤ k → r'.decay3.asNanos = d3 ∧ r'.decay10.asNanos = d10)) ∧
      d3 ≤ s.asNanos ∧ s.asNanos ≤ d3 + 6 ∧ d10 ≤ s.asNanos ∧ s.asNanos ≤ d10 + 18 ∧
      (d3 = s.asNanos ↔ s.asNanos % 10 = 0 ∧ s.asNanos ≤ r.decay3.asNanos) ∧
      (d10 = s.asNanos ↔ s.asNanos % 10 = 0 ∧ s.asNanos ≤ r.decay10.asNanos) := by
  have hr := Rtt.DecayBounds.of_run hrun fun x hx => hmax x (List.mem_cons_of_mem _ hx)
  have hs := hmax s (List.mem_cons_self _ _)
  obtain ⟨n3, d3, hk3, h3le, h3ge, h3iff⟩ := Rtt.decay3_settles s.asNanos r.decay3.asNanos
  obtain ⟨n10, d10, hk10, h10le, h10ge, h10iff⟩ := Rtt.decay10_settles s.asNanos r.decay10.asNanos
  refine ⟨max n3 n10, d3, d10, fun k => ?_, h3le, h3ge, h10le, h10ge, h3iff, h10iff⟩
  obtain ⟨r', hrun', e3, e10⟩ := Rtt.run_replicate_register hs k hr
  exact ⟨r', hrun', fun hk => ⟨e3.trans (hk3 k (Nat.le_trans (Nat.le_max_left _ _) hk)),
    e10.trans (hk10 k (Nat.le_trans (Nat.le_max_right _ _) hk))⟩⟩

theorem repeated_register_settles_ten_ns :
    (Rtt.new ⟨0, 30, by decide, by decide⟩).run [] = some (Rtt.new ⟨0, 30, by decide, by decide⟩) ∧
    (∀ x ∈ [(⟨0, 10, by decide, by decide⟩ : Duration), ⟨0, 30, by decide, by decide⟩],
      x.asNanos ≤ maxSample) ∧
    ∃ n d3 d10, (∀ k, ∃ r', (Rtt.new ⟨0, 30, by decide, by decide⟩).run
          (List.replicate k (.register ⟨0, 10, by decide, by decide⟩)) = some r' ∧
        (n ≤ k → r'.decay3.asNanos = d3 ∧ r'.decay10.asNanos = d10)) ∧
      d3 ≤ 10 ∧ 10 ≤ d3 + 6 ∧ d10 ≤ 10 ∧ 10 ≤ d10 + 18 ∧
      (d3 = 10 ↔ 10 % 10 = 0 ∧ 10 ≤ 30) ∧ (d10 = 10 ↔ 10 % 10 = 0 ∧ 10 ≤ 30) :=
  ⟨rfl, by decide, repeated_register_settles _ _ [] rfl (by decide)⟩

/-- Two runs of `register(s)` that never bring the averages to `s`: from `Rtt::new(1 ns)`, every
`register(1 ns)` leaves both averages at 0 ns; and from `Rtt::new(Duration::MAX)` the first
`register` panics, whatever its sample. -/
theorem register_one_nanosecond_stalls :
    (∀ k, ∃ r, (Rtt.new ⟨0, 1, by decide, by decide⟩).run
        (List.replicate (k + 1) (.register ⟨0, 1, by decide, by decide⟩)) = some r ∧
      r.decay3.asNanos = 0 ∧ r.decay10.asNanos = 0) ∧
    ∀ s, (Rtt.new Duration.MAX).run [.register s] = none := by
  refine ⟨fun k => ?_, fun s => ?_⟩
  · have hnew : Rtt.DecayBounds 0 maxSample (Rtt.new ⟨0, 1, by decide, by decide⟩) :=
      .new (Nat.zero_le _) (by decide)
    obtain ⟨r, hrun, e3, e10⟩ :=
      Rtt.run_replicate_register (s := ⟨0, 1, by decide, by decide⟩) (by decide) (k + 1) hnew
    refine ⟨r, hrun, ?_, ?_⟩
    · rw [e3, Function.iterate_succ_apply]
      exact Function.iterate_fixed (f := (Rtt.decay3Step · 1)) rfl k
    · rw [e10, Function.iterate_succ_apply]
      exact Function.iterate_fixed (f := (Rtt.decay10Step · 1)) rfl k
  · rw [Rtt.run, Rtt.register_eq, dif_neg fun h => absurd h.1 (by decide)]
    rfl

end IpfsEmbed.Net
