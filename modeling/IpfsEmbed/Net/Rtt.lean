import Mathlib.Algebra.Group.Nat.Basic
import Mathlib.Data.Nat.Defs

/-!
# Round-trip times

`Rtt` of `src/net/peers.rs` over a model of `std::time::Duration`. A duration is a `u64` count of
seconds and a nanosecond part below one second. The operators `*`, `/` and `+` are the checked
operations of the standard library followed by `expect`, and `none` stands for their panic.
`Rtt.register` therefore returns an `Option`, while `Rtt.new` is total. `failures += 1` in
`register_failure` wraps in a release build (`Rtt.registerFailure`, the one `World.step` uses) and
panics on overflow in a debug build (`Rtt.registerFailureChecked`).

`new_eq`, `add_eq`, `mul_eq` and `div_eq` say what these operators compute on the count of
nanoseconds `asNanos`, and `register_eq` assembles them: `register` is `decay3Step` and
`decay10Step` on nanoseconds, and panics exactly when one of its five intermediate values reaches
`Duration::MAX` plus one nanosecond.
-/

namespace IpfsEmbed.Net

/-- `NANOS_PER_SEC`. -/
def nanosPerSec : Nat := 1000000000

/-- `std::time::Duration`: whole seconds in a `u64` and the nanoseconds past them. -/
structure Duration where
  secs : Nat
  nanos : Nat
  secs_lt : secs < 2 ^ 64
  nanos_lt : nanos < nanosPerSec

instance : DecidableEq Duration := fun x y =>
  decidable_of_iff (x.secs = y.secs ∧ x.nanos = y.nanos) (by
    cases x; cases y; simp)

attribute [ext] Duration

namespace Duration

/-- `Duration::new`: carry the whole seconds out of `nanos`; `none` is its panic when the
seconds leave `u64`. -/
def new (secs nanos : Nat) : Option Duration :=
  let secs := secs + nanos / nanosPerSec
  if h : secs < 2 ^ 64 then some ⟨secs, nanos % nanosPerSec, h, Nat.mod_lt _ (by decide)⟩
  else none

/-- The `+` operator, `checked_add(rhs).expect(..)`: add the nanoseconds with a carry into
the seconds; `none` is the panic when the seconds leave `u64`. -/
def add (self rhs : Duration) : Option Duration :=
  let secs := self.secs + rhs.secs
  if secs < 2 ^ 64 then
    let nanos := self.nanos + rhs.nanos
    if nanos ≥ nanosPerSec then
      if secs + 1 < 2 ^ 64 then new (secs + 1) (nanos - nanosPerSec) else none
    else new secs nanos
  else none

/-- The `*` operator by a `u32`, `checked_mul(rhs).expect(..)`: multiply the nanoseconds in
`u64` and carry whole seconds; `none` is the panic when the seconds leave `u64`. -/
def mul (self : Duration) (rhs : Nat) : Option Duration :=
  let totalNanos := self.nanos * rhs
  let extraSecs := totalNanos / nanosPerSec
  let nanos := totalNanos % nanosPerSec
  if self.secs * rhs < 2 ^ 64 then
    if self.secs * rhs + extraSecs < 2 ^ 64 then new (self.secs * rhs + extraSecs) nanos
    else none
  else none

/-- The `/` operator by a `u32`, `checked_div(rhs).expect(..)`: divide the seconds and share
the remainders of the seconds and of the nanoseconds among the nanoseconds; `none` is the
panic on a zero divisor. -/
def div (self : Duration) (rhs : Nat) : Option Duration :=
  if rhs ≠ 0 then
    let secs := self.secs / rhs
    let extraSecs := self.secs % rhs
    let nanos := self.nanos / rhs
    let extraNanos := self.nanos % rhs
    new secs (nanos + (extraSecs * nanosPerSec + extraNanos) / rhs)
  else none

/-! ### Durations as nanosecond counts -/

/-- The nanoseconds a `Duration` can hold: `Duration::MAX` is one less. -/
def nanosBound : Nat := 2 ^ 64 * nanosPerSec

/-- `Duration::as_nanos`. -/
def asNanos (d : Duration) : Nat := d.secs * nanosPerSec + d.nanos

/-- `Duration::MAX`. -/
def MAX : Duration := ⟨2 ^ 64 - 1, nanosPerSec - 1, by decide, by decide⟩

theorem nanosBound_eq : nanosBound = 2 ^ 64 * 1000000000 := rfl

theorem asNanos_eq (d : Duration) : d.asNanos = d.secs * 1000000000 + d.nanos := rfl

theorem nanos_lt' (d : Duration) : d.nanos < 1000000000 := d.nanos_lt

theorem asNanos_lt (d : Duration) : d.asNanos < nanosBound := by
  have := d.secs_lt; have := d.asNanos_eq; have := d.nanos_lt'; rw [nanosBound_eq]; omega

/-- The duration of `n` nanoseconds, for `n` below the bound. -/
def ofNanos (n : Nat) (h : n < nanosBound) : Duration :=
  ⟨n / nanosPerSec, n % nanosPerSec, by rw [nanosBound_eq] at h; unfold nanosPerSec; omega,
    Nat.mod_lt _ (by decide)⟩

@[simp] theorem asNanos_ofNanos {n : Nat} (h : n < nanosBound) : (ofNanos n h).asNanos = n := by
  show n / nanosPerSec * 1000000000 + n % nanosPerSec = n
  unfold nanosPerSec; omega

theorem ofNanos_congr {n n' : Nat} (h : n = n') (hn : n < nanosBound) (hn' : n' < nanosBound) :
    ofNanos n hn = ofNanos n' hn' := by
  subst h; rfl

/-- A duration is determined by its nanoseconds. -/
theorem eq_of_asNanos {a b : Duration} (h : a.asNanos = b.asNanos) : a = b := by
  have := a.asNanos_eq; have := b.asNanos_eq; have := a.nanos_lt'; have := b.nanos_lt'
  exact Duration.ext (by omega) (by omega)

theorem new_eq (secs nanos : Nat) :
    new secs nanos =
      if h : secs * nanosPerSec + nanos < nanosBound then some (ofNanos _ h) else none := by
  have := nanosBound_eq
  unfold new nanosPerSec
  dsimp only
  split_ifs
  · refine congrArg some (eq_of_asNanos ?_)
    rw [asNanos_ofNanos, asNanos_eq]; dsimp only; omega
  all_goals first | rfl | omega

/-- `+` adds the nanoseconds, and panics past `Duration::MAX`. -/
theorem add_eq (self rhs : Duration) :
    self.add rhs =
      if h : self.asNanos + rhs.asNanos < nanosBound then some (ofNanos _ h) else none := by
  have := self.asNanos_eq; have := rhs.asNanos_eq; have := self.nanos_lt'; have := rhs.nanos_lt'
  have := nanosBound_eq
  unfold add
  simp only [new_eq, nanosPerSec]
  split_ifs <;> first
    | exact congrArg some (ofNanos_congr (by omega) _ _)
    | (exfalso; omega)
    | rfl

/-- `*` multiplies the nanoseconds, and panics past `Duration::MAX`. -/
theorem mul_eq (self : Duration) (rhs : Nat) :
    self.mul rhs =
      if h : self.asNanos * rhs < nanosBound then some (ofNanos _ h) else none := by
  have key : self.asNanos * rhs = self.secs * rhs * 1000000000 + self.nanos * rhs := by
    rw [asNanos_eq, Nat.add_mul, Nat.mul_right_comm]
  have := nanosBound_eq
  unfold mul
  simp only [new_eq, key, nanosPerSec]
  split_ifs <;> first
    | exact congrArg some (ofNanos_congr (by omega) _ _)
    | (exfalso; omega)
    | rfl

/-- The division of `Duration::checked_div` in nanoseconds: the seconds and the nanoseconds are
divided apart, and the remainders of both are shared out again among the nanoseconds. -/
theorem div_asNanos {secs nanos rhs : Nat} (hrhs : 0 < rhs) :
    secs / rhs * 1000000000 + (nanos / rhs + (secs % rhs * 1000000000 + nanos % rhs) / rhs) =
      (secs * 1000000000 + nanos) / rhs := by
  have hsplit : secs * 1000000000 + nanos =
      (secs % rhs * 1000000000 + nanos % rhs) + rhs * (secs / rhs * 1000000000 + nanos / rhs) := by
    have := Nat.div_add_mod secs rhs; have := Nat.div_add_mod nanos rhs
    rw [Nat.mul_add, ← Nat.mul_assoc]; omega
  rw [hsplit, Nat.add_mul_div_left _ _ hrhs]; omega

/-- `/` divides the nanoseconds, rounding down, and panics on a zero divisor. -/
theorem div_eq (self : Duration) (rhs : Nat) :
    self.div rhs =
      if rhs ≠ 0 then
        some (ofNanos (self.asNanos / rhs) (Nat.lt_of_le_of_lt (Nat.div_le_self _ _) self.asNanos_lt))
      else none := by
  unfold div
  split_ifs with hrhs
  · have hsum := @div_asNanos self.secs self.nanos rhs (Nat.pos_of_ne_zero hrhs)
    have hlt := Nat.lt_of_le_of_lt (Nat.div_le_self self.asNanos rhs) self.asNanos_lt
    rw [asNanos_eq] at hlt
    rw [new_eq, dif_pos (by unfold nanosPerSec; omega)]
    exact congrArg some (ofNanos_congr (by rw [asNanos_eq]; unfold nanosPerSec; omega) _ _)
  · rfl

end Duration

/-- `Rtt`: the last sample, two decaying averages and the number of failures since the last
sample, a `u32`. -/
structure Rtt where
  current : Duration
  decay3 : Duration
  decay10 : Duration
  failures : UInt32

namespace Rtt

/-- `Rtt::new`: every figure starts at the first sample. -/
def new (current : Duration) : Rtt :=
  { current, decay3 := current, decay10 := current, failures := 0 }

/-- `Rtt::register`: `decay_3 * 7 / 10 + current * 3 / 10` and
`decay_10 * 9 / 10 + current / 10`; `none` when a multiplication or addition panics. -/
def register (self : Rtt) (current : Duration) : Option Rtt := do
  let fast ← (← self.decay3.mul 7).div 10
  let fresh ← (← current.mul 3).div 10
  let decay3 ← fast.add fresh
  let slow ← (← self.decay10.mul 9).div 10
  let decay10 ← slow.add (← current.div 10)
  pure { current, decay3, decay10, failures := 0 }

/-- `Rtt::register`'s update of `decay_3`, in nanoseconds: `decay_3 * 7 / 10 + current * 3 / 10`
with each division rounding down. -/
def decay3Step (decay current : Nat) : Nat := decay * 7 / 10 + current * 3 / 10

/-- `Rtt::register`'s update of `decay_10`, in nanoseconds: `decay_10 * 9 / 10 + current / 10`. -/
def decay10Step (decay current : Nat) : Nat := decay * 9 / 10 + current / 10

/-- `register` in nanoseconds: it succeeds exactly when none of its three products and two sums
passes `Duration::MAX`, and then stores the sample, the two formulas and no failure. -/
theorem register_eq (self : Rtt) (current : Duration) :
    self.register current =
      if h : self.decay3.asNanos * 7 < Duration.nanosBound ∧
          current.asNanos * 3 < Duration.nanosBound ∧
          decay3Step self.decay3.asNanos current.asNanos < Duration.nanosBound ∧
          self.decay10.asNanos * 9 < Duration.nanosBound ∧
          decay10Step self.decay10.asNanos current.asNanos < Duration.nanosBound then
        some ⟨current, .ofNanos _ h.2.2.1, .ofNanos _ h.2.2.2.2, 0⟩
      else none := by
  by_cases h : self.decay3.asNanos * 7 < Duration.nanosBound ∧
      current.asNanos * 3 < Duration.nanosBound ∧
      decay3Step self.decay3.asNanos current.asNanos < Duration.nanosBound ∧
      self.decay10.asNanos * 9 < Duration.nanosBound ∧
      decay10Step self.decay10.asNanos current.asNanos < Duration.nanosBound
  · obtain ⟨h₁, h₂, h₃, h₄, h₅⟩ := h
    simp only [decay3Step, decay10Step] at h₃ h₅
    simp only [register, Duration.mul_eq, Duration.div_eq, Duration.add_eq, h₁, h₂, h₃, h₄, h₅,
      ne_eq, Nat.add_one_ne_zero, not_false_eq_true, Option.pure_def, Option.bind_eq_bind,
      Option.some_bind, Duration.asNanos_ofNanos, decay3Step, decay10Step, and_self, dite_true,
      ite_true]
  · simp only [decay3Step, decay10Step, not_and_or, not_lt] at h
    rw [dif_neg (by simp only [decay3Step, decay10Step, not_and_or, not_lt]; exact h)]
    rcases h with h | h | h | h | h <;>
      simp only [register, Duration.mul_eq, Duration.div_eq, ne_eq, Nat.add_one_ne_zero,
        not_false_eq_true, ite_true, not_lt.mpr h, dite_false, Duration.add_eq, Option.pure_def,
        Option.bind_eq_bind, Option.some_bind, Duration.asNanos_ofNanos, Option.none_bind,
        Option.bind_none, Option.bind_eq_none, Option.dite_none_right_eq_some, Option.some.injEq,
        reduceCtorEq, imp_false, not_exists, forall_apply_eq_imp_iff, not_lt, forall_exists_index,
        h, false_implies, implies_true]

/-- What a `register` that did not panic stored, in nanoseconds. -/
theorem register_spec {self r : Rtt} {current : Duration} (h : self.register current = some r) :
    r.current = current ∧ r.decay3.asNanos = decay3Step self.decay3.asNanos current.asNanos ∧
      r.decay10.asNanos = decay10Step self.decay10.asNanos current.asNanos ∧ r.failures = 0 := by
  rw [register_eq] at h
  split_ifs at h
  cases h
  simp

/-- Below the bounds of its products and sums, `register` does not panic. -/
theorem register_isSome {self : Rtt} {current : Duration}
    (h : self.decay3.asNanos * 7 < Duration.nanosBound ∧
      current.asNanos * 3 < Duration.nanosBound ∧
      decay3Step self.decay3.asNanos current.asNanos < Duration.nanosBound ∧
      self.decay10.asNanos * 9 < Duration.nanosBound ∧
      decay10Step self.decay10.asNanos current.asNanos < Duration.nanosBound) :
    ∃ r, self.register current = some r :=
  ⟨_, by rw [register_eq, dif_pos h]⟩

/-- `Rtt::register_failure`: count one more failure and keep the timings. `failures += 1`
wraps, as in a release build. -/
def registerFailure (self : Rtt) : Rtt :=
  { self with failures := self.failures + 1 }

/-- `Rtt::register_failure` in a debug build, where `failures += 1` is checked: `none` is the
overflow panic of the `2^32`-th failure in a row. -/
def registerFailureChecked (self : Rtt) : Option Rtt :=
  if self.failures.toNat + 1 < UInt32.size then some self.registerFailure else none

/-- The checked `register_failure` panics exactly when `failures` is `u32::MAX`. -/
theorem registerFailureChecked_eq (self : Rtt) :
    self.registerFailureChecked =
      if self.failures = 4294967295 then none else some self.registerFailure := by
  have hlt := self.failures.toNat_lt_size
  have hmax : self.failures = 4294967295 ↔ self.failures.toNat = 4294967295 :=
    ⟨fun h => h ▸ rfl, fun h => UInt32.toNat.inj h⟩
  unfold registerFailureChecked
  by_cases h : self.failures.toNat = 4294967295
  · rw [if_neg (by simp only [UInt32.size]; omega), if_pos (hmax.mpr h)]
  · rw [if_pos (by simp only [UInt32.size] at hlt ⊢; omega), if_neg (mt hmax.mp h)]

end Rtt

end IpfsEmbed.Net
