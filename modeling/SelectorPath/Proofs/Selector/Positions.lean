/-
The positions that a condition selects.

* `Positions.Selects`: the positions that are meant, in the sense of `An+B`.
* `Positions.natMultiple_iff`: the positions `A * n + B` for `n` from zero on are
  those that differ from `B` by a multiple of `A` and lie on its side of `B`.
* `Positions.condition_selects`: the condition, read from its text, holds at
  exactly the positions that are meant.
-/
import SelectorPath.Proofs.XPath.Arithmetic
import SelectorPath.Selector.Positions

namespace SelectorPath.Positions

open XPath

/-- The positions that are meant. -/
def Selects : Positions → Int → Prop
  | .odd, p => ∃ n : Nat, p = 2 * n + 1
  | .even, p => ∃ n : Nat, p = 2 * n
  | .exactly i, p => p = i
  | .every step offset, p => ∃ n : Nat, p = step * n + offset

/-! ### Multiples and remainders -/

/-- A multiple by a number from zero on lies on the side of its factor. -/
lemma natMultiple_iff {a d : Int} (ha : a ≠ 0) :
    (∃ n : Nat, d = a * n) ↔ a ∣ d ∧ (if 0 < a then 0 ≤ d else d ≤ 0) := by
  constructor
  · rintro ⟨n, rfl⟩
    refine ⟨Int.dvd_mul_right a n, ?_⟩
    split_ifs with hpos
    · exact Int.mul_nonneg (Int.le_of_lt hpos) (Int.natCast_nonneg n)
    · exact Int.mul_nonpos_of_nonpos_of_nonneg (by omega) (Int.natCast_nonneg n)
  · rintro ⟨⟨k, rfl⟩, hside⟩
    have hk : 0 ≤ k := by
      split_ifs at hside with hpos
      · exact Int.nonneg_of_mul_nonneg_right hside hpos
      · exact Int.nonneg_of_mul_nonpos_right hside (by omega)
    exact ⟨k.toNat, by rw [Int.toNat_of_nonneg hk]⟩

section

variable {place : Place}

/-- The sign of the offset is folded in. -/
lemma value?_shifted (offset : Int) :
    (shifted offset).value? place = some (place.position - offset) := by
  rw [shifted]
  split_ifs
  · show some (place.position + -offset) = _
    rw [Int.sub_eq_add_neg]
  · rfl

/-- The remainder is zero exactly for multiples, whatever its sign. -/
lemma truth?_multiple {step : Int} (hstep : step ≠ 0) (offset : Int) :
    (multiple step.natAbs offset).truth? place =
      some (decide (step ∣ place.position - offset)) := by
  have hne : (step.natAbs : Int) ≠ 0 := by omega
  have hdvd : (place.position - offset).tmod step.natAbs = 0 ↔ step ∣ place.position - offset := by
    rw [← Int.dvd_iff_tmod_eq_zero, Int.natAbs_dvd]
  rw [multiple, Condition.truth?_compare .equal
    (Number.value?_remainder (value?_shifted offset) rfl hne) rfl]
  simp only [Relation.holds, hdvd]

/-- Every second position, from the first or from the second on. -/
lemma truth?_parity (place : Place) (r : Int) (hr : 0 ≤ r) (hr' : r < 2) :
    ∃ truth : Bool,
      (Condition.conjunction (.compare .equal (.remainder .position (.integer 2)) (.integer r))
        (.compare .atLeast .position (.integer r))).truth? place = some truth ∧
        (truth = true ↔ ∃ n : Nat, place.position = 2 * n + r) := by
  have hone := place.one_le_position
  refine ⟨_, Condition.truth?_conjunction
    (Condition.truth?_compare .equal (Number.value?_remainder rfl rfl (by decide)) rfl)
    (Condition.truth?_compare .atLeast rfl rfl), ?_⟩
  have hmod : place.position.tmod 2 = place.position % 2 :=
    Int.tmod_eq_emod_of_nonneg (by omega)
  simp only [Relation.holds, hmod, Bool.and_eq_true, decide_eq_true_eq]
  constructor
  · rintro ⟨hrest, -⟩
    exact ⟨(place.position / 2).toNat, by omega⟩
  · rintro ⟨n, hn⟩
    omega

/-- The truth of the condition at a place. -/
lemma truth?_condition (positions : Positions) :
    ∃ truth : Bool, positions.condition.truth? place = some truth ∧
      (truth = true ↔ positions.Selects place.position) := by
  cases positions with
  | odd => exact truth?_parity place 1 (by decide) (by decide)
  | even =>
      obtain ⟨truth, htruth, hiff⟩ := truth?_parity place 0 (by decide) (by decide)
      exact ⟨truth, htruth, by simpa only [Selects, Int.add_zero] using hiff⟩
  | exactly i =>
      refine ⟨_, Condition.truth?_compare .equal rfl rfl, ?_⟩
      simp only [Relation.holds, decide_eq_true_eq, Selects]
  | every step offset =>
      -- with step zero there is no multiple to test, and only the offset is left
      by_cases hstep : step = 0
      · rw [condition, if_pos hstep]
        refine ⟨_, Condition.truth?_compare .equal rfl rfl, ?_⟩
        simp [Relation.holds, Selects, hstep]
      · rw [condition, if_neg hstep]
        refine ⟨_, Condition.truth?_conjunction (truth?_multiple hstep offset)
          (Condition.truth?_compare _ rfl rfl), ?_⟩
        have hselects : Selects (.every step offset) place.position ↔
            ∃ n : Nat, place.position - offset = step * n := by
          simp only [Selects, Int.sub_eq_iff_eq_add]
        rw [hselects, natMultiple_iff hstep, Bool.and_eq_true, decide_eq_true_eq]
        -- the sign of the step tells on which side of the offset the positions are
        refine and_congr_right fun _ => ?_
        split_ifs with hpos
        · simp only [Relation.holds, decide_eq_true_eq]
          omega
        · simp only [Relation.holds, decide_eq_true_eq]
          omega

end

/-- The condition can be read from its text. -/
lemma isReadable_condition (positions : Positions) : positions.condition.IsReadable := by
  have hshifted : ∀ offset, (shifted offset).IsReadable := by
    intro offset
    rw [shifted]
    split_ifs <;> exact ⟨trivial, trivial⟩
  cases positions with
  | odd | even => exact ⟨⟨⟨trivial, trivial, rfl⟩, trivial⟩, trivial, trivial⟩
  | exactly i => exact ⟨trivial, trivial⟩
  | every step offset =>
      by_cases hstep : step = 0
      · rw [condition, if_pos hstep]
        exact ⟨trivial, trivial⟩
      · rw [condition, if_neg hstep]
        exact ⟨⟨⟨hshifted offset, trivial, rfl⟩, trivial⟩, trivial, trivial⟩

/-- **The condition selects what is meant.** Read from its text, it is true at
the positions that are meant and false at all others. -/
theorem condition_selects (positions : Positions) (place : Place) (folding : Folding) :
    ∃ truth : Bool, evaluate? place (positions.condition.render folding) = some truth ∧
      (truth = true ↔ positions.Selects place.position) := by
  rw [evaluate?_render (isReadable_condition positions)]
  exact truth?_condition positions

end SelectorPath.Positions
