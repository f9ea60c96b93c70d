import Phantom.Lib.Saturating

namespace Phantom.Media

open Phantom.Lib

inductive Method where
  | crop
  | scale
deriving DecidableEq

structure Dim where
  width : UInt32
  height : UInt32
  method : Method
deriving DecidableEq

inductive Error where
  | arithmetic (message : String)
deriving DecidableEq

/-- `checked!(dividend / divisor)`. -/
def checkedDiv (dividend divisor : UInt32) : Except Error UInt32 :=
  if divisor = 0 then .error (.arithmetic "operation overflowed or result invalid") else .ok (dividend / divisor)

/-- The products are `Saturating<u32>`. -/
def Dim.scaled (requested source : Dim) : Except Error Dim := do
  let width := min requested.width source.width
  let height := min requested.height source.height
  let across := saturate32 (width.toNat * source.height.toNat)
  let down := saturate32 (height.toNat * source.width.toNat)
  if across ≤ down then
    return ⟨width, ← checkedDiv across source.width, .scale⟩
  else
    return ⟨← checkedDiv down source.height, height, .scale⟩

variable (requested source : Dim)

/-- One side is at its bound, and the other follows it. -/
structure WellScaled (result : Dim) : Prop where
  positive : 1 ≤ result.width.toNat ∧ 1 ≤ result.height.toNat
  atMostRequested : result.width.toNat ≤ requested.width.toNat ∧ result.height.toNat ≤ requested.height.toNat
  atMostSource : result.width.toNat ≤ source.width.toNat ∧ result.height.toNat ≤ source.height.toNat
  aspect : (result.width.toNat = min requested.width.toNat source.width.toNat ∧
      result.height.toNat = max 1 (result.width.toNat * source.height.toNat / source.width.toNat)) ∨
    (result.height.toNat = min requested.height.toNat source.height.toNat ∧
      result.width.toNat = max 1 (result.height.toNat * source.width.toNat / source.height.toNat))

/-- The side that follows is not rounded to 0, and what a saturated product loses is lost in the division. -/
def Scales : Prop :=
  let across := min requested.width.toNat source.width.toNat * source.height.toNat
  let down := min requested.height.toNat source.height.toNat * source.width.toNat
  let limit := UInt32.size - 1
  if min across limit ≤ min down limit then
    source.width.toNat ≤ across ∧ min across limit / source.width.toNat = across / source.width.toNat
  else source.height.toNat ≤ down

variable {source}

theorem scaled_eq (wide : 1 ≤ source.width) (high : 1 ≤ source.height) :
    ∃ result, requested.scaled source = .ok result ∧
      let width := min requested.width.toNat source.width.toNat
      let height := min requested.height.toNat source.height.toNat
      let across := min (width * source.height.toNat) (UInt32.size - 1)
      let down := min (height * source.width.toNat) (UInt32.size - 1)
      if across ≤ down then result.width.toNat = width ∧ result.height.toNat = across / source.width.toNat
      else result.width.toNat = down / source.height.toNat ∧ result.height.toNat = height := by
  have divides : ∀ dividend divisor : UInt32, 1 ≤ divisor → checkedDiv dividend divisor = .ok (dividend / divisor) := by
    intro dividend divisor positive
    refine if_neg ?_
    rintro rfl
    exact absurd positive (by decide)
  simp only [Dim.scaled, divides _ _ wide, divides _ _ high, UInt32.le_iff_toNat_le, saturate32_toNat, toNat_min32]
  split <;> refine ⟨_, rfl, ?_⟩ <;> simp only [toNat_min32, UInt32.toNat_div, saturate32_toNat, and_self]

theorem side_exact_iff {width height wide high limit side : ℕ} (real : 1 ≤ wide) (tall : 1 ≤ high)
    (highest : high ≤ limit) (first : min (width * high) limit ≤ min (height * wide) limit)
    (value : side = min (width * high) limit / wide) :
    (1 ≤ side ∧ (side = max 1 (width * high / wide) ∨ side = height ∧ width = max 1 (height * wide / high))) ↔
      wide ≤ width * high ∧ side = width * high / wide := by
  have counted : ∀ product, 1 ≤ product / wide ↔ wide ≤ product := fun product => by
    rw [Nat.le_div_iff_mul_le real, Nat.one_mul]
  constructor
  · rintro ⟨positive, aspect⟩
    have reaches : wide ≤ width * high := Nat.le_trans ((counted _).mp (value ▸ positive)) (Nat.min_le_left _ _)
    refine ⟨reaches, ?_⟩
    rcases aspect with follows | ⟨filled, other⟩
    · rwa [Nat.max_eq_right ((counted _).mpr reaches)] at follows
    · rcases Nat.lt_or_ge limit (width * high) with large | small
      · -- the height is at its bound, and the width at most what a product below the limit gives
        exfalso
        rw [Nat.min_eq_right (Nat.le_of_lt large)] at first value
        have below : height * wide ≤ limit := filled ▸ value ▸ Nat.div_mul_le_self limit wide
        have same : height * wide = limit := by omega
        rw [same, Nat.max_eq_right ((Nat.le_div_iff_mul_le tall).mpr (by omega))] at other
        have product := Nat.div_mul_le_self limit high
        rw [← other] at product
        omega
      · rw [value, Nat.min_eq_left small]
  · rintro ⟨reaches, exact⟩
    exact ⟨exact ▸ (counted _).mpr reaches, Or.inl (exact.trans (Nat.max_eq_right ((counted _).mpr reaches)).symm)⟩

/-- For sizes of at least 1 a scaled size is there, and it is well formed if and only if `Scales` holds. -/
theorem scaled_well_formed_iff (requested source : Dim) (asked : 1 ≤ requested.width ∧ 1 ≤ requested.height)
    (real : 1 ≤ source.width ∧ 1 ≤ source.height) :
    ∃ result, requested.scaled source = .ok result ∧ (WellScaled requested source result ↔ Scales requested source) := by
  obtain ⟨result, scaled, sides⟩ := scaled_eq requested real.1 real.2
  refine ⟨result, scaled, ?_⟩
  have width : 1 ≤ requested.width.toNat := asked.1
  have height : 1 ≤ requested.height.toNat := asked.2
  have wide : 1 ≤ source.width.toNat := real.1
  have high : 1 ≤ source.height.toNat := real.2
  have highest : source.height.toNat ≤ UInt32.size - 1 := Nat.le_pred_of_lt source.height.toNat_lt
  dsimp only at sides
  unfold Scales
  dsimp only
  split at sides
  · next first =>
    obtain ⟨bound, side⟩ := sides
    have below : result.height.toNat ≤ min requested.height.toNat source.height.toNat := by
      rw [side, Nat.div_le_iff_le_mul wide]
      omega
    rw [if_pos first, ← side, ← side_exact_iff wide high highest first side, ← bound]
    constructor
    · intro well
      refine ⟨well.positive.2, well.aspect.imp And.right ?_⟩
      rintro ⟨filled, follows⟩
      exact ⟨filled, filled ▸ follows⟩
    · rintro ⟨positive, exact⟩
      refine ⟨⟨by omega, positive⟩, by omega, by omega, exact.imp (fun follows => ⟨bound, follows⟩) ?_⟩
      rintro ⟨filled, follows⟩
      exact ⟨filled, filled ▸ follows⟩
  · next second =>
    obtain ⟨side, bound⟩ := sides
    rw [Nat.min_eq_left (by omega)] at side
    have counted : 1 ≤ result.width.toNat ↔ source.height.toNat ≤
        min requested.height.toNat source.height.toNat * source.width.toNat := by
      rw [side, Nat.le_div_iff_mul_le high, Nat.one_mul]
    have below : result.width.toNat ≤ min requested.width.toNat source.width.toNat := by
      rw [side, Nat.div_le_iff_le_mul high]
      omega
    rw [if_neg second, ← counted]
    refine ⟨fun well => well.positive.1, fun positive => ⟨⟨positive, by omega⟩, by omega, by omega, Or.inr ⟨bound, ?_⟩⟩⟩
    rw [bound, ← side]
    exact (Nat.max_eq_right positive).symm

/-- A wide strip loses its height, and a large picture its aspect. -/
theorem scaled_ill_formed :
    Dim.scaled ⟨100, 100, .scale⟩ ⟨10000, 1, .scale⟩ = .ok ⟨100, 0, .scale⟩ ∧
    ¬ WellScaled ⟨100, 100, .scale⟩ ⟨10000, 1, .scale⟩ ⟨100, 0, .scale⟩ ∧
    Dim.scaled ⟨50000, 50000, .scale⟩ ⟨100000, 100000, .scale⟩ = .ok ⟨50000, 42949, .scale⟩ ∧
    ¬ WellScaled ⟨50000, 50000, .scale⟩ ⟨100000, 100000, .scale⟩ ⟨50000, 42949, .scale⟩ :=
  ⟨by decide +kernel, fun well => absurd well.positive.2 (by decide +kernel), by decide +kernel,
    fun well => absurd well.aspect (by decide +kernel)⟩

theorem scaled_well_formed_photo : ∃ result, Dim.scaled ⟨320, 240, .scale⟩ ⟨1000, 500, .scale⟩ = .ok result ∧
    WellScaled ⟨320, 240, .scale⟩ ⟨1000, 500, .scale⟩ result := by
  obtain ⟨result, scaled, well⟩ := scaled_well_formed_iff ⟨320, 240, .scale⟩ ⟨1000, 500, .scale⟩ (by decide) (by decide)
  exact ⟨result, scaled, well.mpr (by unfold Scales; decide +kernel)⟩

end Phantom.Media
