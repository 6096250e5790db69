import Mathlib.Algebra.Group.Nat.Defs
import InformerHub.Config.Settings

/-!
# Pauses double up to the cap

The pause before a retry is worked out in words of 64 bits.  The power of two is cut off where it
does not fit, and so is its product with the base, and of what is left the cap of the policy takes
the rest.  None of this shows:

> the pause is `min (base * 2 ^ attempt) cap` milliseconds, as if words had no end
> (`pauses_double`).

A cut can only matter where the exact product is larger than any word (`min_cut`), and there the cap
is the smaller one anyway.  What else is known of pauses follows from that one equation
(`delayMs_eq`).
-/

namespace InformerHub.BackoffPolicy

open Duration

theorem maxDelayMs_le (p : BackoffPolicy) : p.maxDelayMs.toNat ≤ maxWord := by
  have := p.maxDelayMs.toNat_lt
  simp only [maxWord, UInt64.size]
  omega

/-- A factor that is cut off where no cap reaches makes no difference. -/
theorem min_cut {base cap factor word : Nat} (hcap : cap ≤ word) (hword : word ≤ factor) :
    min (min (base * word) word) cap = min (base * factor) cap := by
  cases base with
  | zero => simp
  | succ b =>
    have hcut : word ≤ (b + 1) * word := Nat.le_mul_of_pos_left _ (Nat.succ_pos b)
    have hfull : factor ≤ (b + 1) * factor := Nat.le_mul_of_pos_left _ (Nat.succ_pos b)
    omega

theorem maxWord_le_two_pow {attempt : Nat} (h : 64 ≤ attempt) : maxWord ≤ 2 ^ attempt := by
  have hword : maxWord ≤ 2 ^ 64 := by decide
  exact Nat.le_trans hword (Nat.pow_le_pow_right Nat.two_pos h)

/-- The cut at 64 bits does not show. -/
theorem delayMs_eq (p : BackoffPolicy) (attempt : Nat) :
    p.delayMs attempt = min (p.baseDelayMs.toNat * 2 ^ attempt) p.maxDelayMs.toNat := by
  have hcap := p.maxDelayMs_le
  unfold delayMs stretch
  split
  next =>
    -- the power is exact, and the cut of the product lies above the cap
    show min (min (p.baseDelayMs.toNat * 2 ^ attempt) maxWord) _ = _
    omega
  next hlarge => exact min_cut hcap (maxWord_le_two_pow (Nat.le_of_not_lt hlarge))

/-- The longest shift that fits, and the first one that does not. -/
example : (⟨0, 1, 1, 18446744073709551615⟩ : BackoffPolicy).delayMs 63 = 9223372036854775808 ∧
    (⟨0, 1, 1, 18446744073709551615⟩ : BackoffPolicy).delayMs 64 = 18446744073709551615 := by
  decide

theorem delayMs_le (p : BackoffPolicy) (attempt : Nat) :
    p.delayMs attempt ≤ p.maxDelayMs.toNat :=
  Nat.min_le_right _ _

theorem delayMs_mono (p : BackoffPolicy) {i j : Nat} (hij : i ≤ j) :
    p.delayMs i ≤ p.delayMs j := by
  have hfactor : 2 ^ i ≤ 2 ^ j := Nat.pow_le_pow_right Nat.two_pos hij
  have hproduct := Nat.mul_le_mul_left p.baseDelayMs.toNat hfactor
  rw [delayMs_eq, delayMs_eq]
  omega

theorem delayMs_zero {p : BackoffPolicy} (h : p.baseDelayMs ≤ p.maxDelayMs) :
    p.delayMs 0 = p.baseDelayMs.toNat := by
  rw [delayMs_eq, Nat.pow_zero, Nat.mul_one]
  exact Nat.min_eq_left (UInt64.le_iff_toNat_le.mp h)

/-- At the width of a word any base has outgrown the cap. -/
theorem delayMs_of_le {p : BackoffPolicy} (hbase : p.baseDelayMs ≠ 0) {attempt : Nat}
    (h : 64 ≤ attempt) : p.delayMs attempt = p.maxDelayMs.toNat := by
  have hpos : 0 < p.baseDelayMs.toNat :=
    Nat.pos_of_ne_zero fun h0 => hbase (UInt64.toNat_inj.mp h0)
  rw [delayMs_eq]
  refine Nat.min_eq_right ?_
  calc p.maxDelayMs.toNat ≤ maxWord := p.maxDelayMs_le
    _ ≤ 2 ^ attempt := maxWord_le_two_pow h
    _ ≤ p.baseDelayMs.toNat * 2 ^ attempt := Nat.le_mul_of_pos_left _ hpos

/-- The base of a policy that is accepted is not above its cap. -/
theorem base_le_of_validate {p : BackoffPolicy} {name : String} (h : p.validate name = .ok ()) :
    p.baseDelayMs ≤ p.maxDelayMs := by
  unfold validate at h
  split at h
  next => exact absurd h (by simp)
  next =>
    split at h
    next => exact absurd h (by simp)
    next hle => exact UInt64.not_lt.mp hle

/-- **Pauses double up to the cap, exactly.**  Take any policy.  The pause after any number of
attempts is the smaller one of `base * 2 ^ attempt` and the cap, in milliseconds and without any
bound on the numbers on the way.  So it is never above the cap and never shorter than an earlier
one; it begins with the base if the policy is accepted; and if the base is not zero, it is the cap
from attempt 64 on. -/
theorem pauses_double (p : BackoffPolicy) :
    (∀ attempt, p.delayFor attempt =
      ofMillis (min (p.baseDelayMs.toNat * 2 ^ attempt) p.maxDelayMs.toNat)) ∧
    (∀ attempt, p.delayFor attempt ≤ ofMillis p.maxDelayMs.toNat) ∧
    (∀ i j, i ≤ j → p.delayFor i ≤ p.delayFor j) ∧
    (∀ name, p.validate name = .ok () → p.delayFor 0 = ofMillis p.baseDelayMs.toNat) ∧
    (p.baseDelayMs ≠ 0 → ∀ attempt, 64 ≤ attempt →
      p.delayFor attempt = ofMillis p.maxDelayMs.toNat) := by
  refine ⟨fun attempt => ?_, fun attempt => ?_, fun i j hij => ?_, fun name h => ?_,
    fun hbase attempt h => ?_⟩
  · exact congrArg ofMillis (p.delayMs_eq attempt)
  · exact ofMillis_le.mpr (p.delayMs_le attempt)
  · exact ofMillis_le.mpr (p.delayMs_mono hij)
  · exact congrArg ofMillis (delayMs_zero (base_le_of_validate h))
  · exact congrArg ofMillis (delayMs_of_le hbase h)

end InformerHub.BackoffPolicy
