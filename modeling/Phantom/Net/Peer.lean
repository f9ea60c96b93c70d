import Mathlib.Data.Nat.Sqrt
import Phantom.Lib.Saturating

namespace Phantom.Net.Federation

open Phantom.Lib

structure Duration where
  secs : UInt64
  nanos : UInt32

def Duration.asSecs (duration : Duration) : UInt64 := duration.secs

/-- `u64::div_ceil`, which does not overflow. -/
def divCeil (dividend divisor : UInt64) : ℕ :=
  if dividend.toNat % divisor.toNat = 0 then dividend.toNat / divisor.toNat else dividend.toNat / divisor.toNat + 1

def exponentialBackoffStreakCap (window max : Duration) : UInt32 :=
  if window.asSecs = 0 then 1
  else
    let ratio := divCeil max.asSecs window.asSecs
    -- `u32::try_from(..).unwrap_or(u32::MAX)`
    saturate32 (saturate64 (ratio.sqrt + 1)).toNat

inductive Classification where
  | transient
  | permanent
deriving DecidableEq

/-- The time of an earliest retry in seconds since the epoch. -/
inductive ShouldAttempt where
  | yes
  | no (earliestRetry : ℕ)
  | deprioritize
deriving DecidableEq

structure Backoff where
  classification : Classification
  anchorSecs : UInt64
  streak : UInt32
  now : UInt64
  windowSecs : UInt64
  graceSecs : UInt64
  maxBackoffSecs : UInt64

namespace Backoff

def delaySecs (backoff : Backoff) : UInt64 :=
  match backoff.classification with
  | .permanent => backoff.maxBackoffSecs
  | .transient =>
    if backoff.streak ≤ 1 ∧ backoff.graceSecs ≠ 0 then min backoff.graceSecs backoff.maxBackoffSecs
    else
      let once := saturate64 (backoff.windowSecs.toNat * backoff.streak.toNat)
      min (saturate64 (once.toNat * backoff.streak.toNat)) backoff.maxBackoffSecs

/-- A `SystemTime` counts its seconds in an `i64`; a time past it is replaced by the system's clock. -/
def attemptVerdict (clock : ℕ) (backoff : Backoff) : ShouldAttempt :=
  let earliestSecs := saturate64 (backoff.anchorSecs.toNat + backoff.delaySecs.toNat)
  if backoff.now < earliestSecs then
    .no (if earliestSecs.toNat < UInt64.size / 2 then earliestSecs.toNat else clock)
  else .deprioritize

end Backoff

open Backoff

variable {backoff : Backoff} {window max : Duration} {streak : UInt32}

theorem curve_toNat (window max streak : ℕ) (fits : max < UInt64.size) :
    min (saturate64 ((saturate64 (window * streak)).toNat * streak)).toNat max = min (window * streak * streak) max := by
  rw [saturate64_toNat, saturate64_toNat]
  rcases Nat.eq_zero_or_pos streak with rfl | positive
  · simp
  rcases Nat.le_total (window * streak) (UInt64.size - 1) with small | large
  · rw [Nat.min_eq_left small]
    omega
  · have wide : UInt64.size - 1 ≤ (UInt64.size - 1) * streak := Nat.le_mul_of_pos_right _ positive
    have square : window * streak ≤ window * streak * streak := Nat.le_mul_of_pos_right _ positive
    rw [Nat.min_eq_right large]
    omega

theorem delaySecs_toNat (backoff : Backoff) : backoff.delaySecs.toNat = match backoff.classification with
    | .permanent => backoff.maxBackoffSecs.toNat
    | .transient =>
      if backoff.streak ≤ 1 ∧ backoff.graceSecs ≠ 0 then min backoff.graceSecs.toNat backoff.maxBackoffSecs.toNat
      else min (backoff.windowSecs.toNat * backoff.streak.toNat * backoff.streak.toNat) backoff.maxBackoffSecs.toNat := by
  unfold delaySecs
  cases backoff.classification with
  | permanent => rfl
  | transient =>
    dsimp only
    split
    · exact toNat_min64 _ _
    · rw [toNat_min64]
      exact curve_toNat _ _ _ backoff.maxBackoffSecs.toNat_lt

theorem le_mul_divCeil (dividend : UInt64) {divisor : UInt64} (positive : 0 < divisor.toNat) :
    dividend.toNat ≤ divisor.toNat * divCeil dividend divisor := by
  have parts := Nat.div_add_mod dividend.toNat divisor.toNat
  have less := Nat.mod_lt dividend.toNat positive
  unfold divCeil
  split
  · omega
  · rw [Nat.mul_add, Nat.mul_one]
    omega

/-- A streak above the cap is one where the square of the cap spans the maximum, and the cap is at least 2 unless the
    maximum is 0. -/
theorem max_le_of_cap_lt (positive : 1 ≤ window.asSecs.toNat)
    (above : (exponentialBackoffStreakCap window max).toNat < streak.toNat) :
    let cap := (exponentialBackoffStreakCap window max).toNat
    max.asSecs.toNat ≤ window.asSecs.toNat * cap * cap ∧ (max.asSecs.toNat = 0 ∨ 2 ≤ cap) := by
  have nonzero : window.asSecs ≠ 0 := by
    intro zero
    rw [zero] at positive
    exact absurd positive (by decide)
  have reach := le_mul_divCeil max.asSecs positive
  have root := Nat.lt_succ_sqrt (divCeil max.asSecs window.asSecs)
  have value : (exponentialBackoffStreakCap window max).toNat = Nat.sqrt (divCeil max.asSecs window.asSecs) + 1 := by
    have limit : UInt32.size ≤ UInt64.size := by decide +kernel
    have widest : streak.toNat < UInt32.size := streak.toNat_lt
    rw [exponentialBackoffStreakCap, if_neg nonzero, saturate32_toNat, saturate64_toNat] at above ⊢
    generalize UInt32.size = narrow, UInt64.size = wide at *
    omega
  dsimp only
  rw [value, Nat.mul_assoc]
  refine ⟨Nat.le_trans reach (Nat.mul_le_mul_left _ (Nat.le_of_lt root)), ?_⟩
  rcases Nat.eq_zero_or_pos (Nat.sqrt (divCeil max.asSecs window.asSecs)) with zero | large
  · left
    rw [Nat.sqrt_eq_zero.mp zero] at reach
    omega
  · omega

/-- The delay and the verdict are those of the streak itself, without the cap. -/
theorem streak_cap_transparent (window max grace : Duration) (positive : 1 ≤ window.asSecs)
    (classification : Classification) (streak : UInt32) (anchorSecs now : UInt64) (clock : ℕ) :
    let backoff (streak : UInt32) : Backoff :=
      ⟨classification, anchorSecs, streak, now, window.asSecs, grace.asSecs, max.asSecs⟩
    let capped := min streak (exponentialBackoffStreakCap window max)
    (backoff capped).delaySecs = (backoff streak).delaySecs ∧
      attemptVerdict clock (backoff capped) = attemptVerdict clock (backoff streak) := by
  intro backoff capped
  have same : (backoff capped).delaySecs = (backoff streak).delaySecs := by
    rcases Nat.lt_or_ge (exponentialBackoffStreakCap window max).toNat streak.toNat with above | below
    · obtain ⟨spans, least⟩ := max_le_of_cap_lt positive above
      have value : capped.toNat = (exponentialBackoffStreakCap window max).toNat := by
        rw [toNat_min32]
        omega
      apply UInt64.toNat_inj.mp
      rw [delaySecs_toNat, delaySecs_toNat]
      cases classification with
      | permanent => rfl
      | transient =>
        dsimp only [backoff]
        rcases least with zero | two
        · simp only [zero, Nat.min_zero, ite_self]
        · have further := Nat.mul_le_mul (Nat.mul_le_mul_left window.asSecs.toNat (Nat.le_of_lt above))
            (Nat.le_of_lt above)
          rw [if_neg fun early => ?_, if_neg fun early => ?_, value, Nat.min_eq_right spans,
            Nat.min_eq_right (Nat.le_trans spans further)]
          · have late : streak.toNat ≤ 1 := early.1
            omega
          · have late : capped.toNat ≤ 1 := early.1
            omega
    · have value : capped = streak := UInt32.toNat_inj.mp (by rw [toNat_min32]; omega)
      rw [value]
  refine ⟨same, ?_⟩
  unfold attemptVerdict
  rw [same]

theorem streak_cap_transparent_at_boundary :
    let backoff (streak : UInt32) : Backoff := ⟨.transient, 0, streak, 86399, 180, 30, 86400⟩
    let cap := exponentialBackoffStreakCap ⟨180, 0⟩ ⟨86400, 0⟩
    cap = 22 ∧ (backoff (min 1000 cap)).delaySecs = (backoff 1000).delaySecs :=
  ⟨by decide +kernel, (streak_cap_transparent ⟨180, 0⟩ ⟨86400, 0⟩ ⟨30, 0⟩ (by decide) .transient 1000 0 86399 0).1⟩

end Phantom.Net.Federation
