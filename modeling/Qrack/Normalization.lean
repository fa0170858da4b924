import Qrack.StoreShape
import Qrack.RunningNorm

set_option autoImplicit false

/- `NormalizeState()` as a postcondition. `par_norm` with the amplitude floor adds exactly the norms the
   flush below the floor keeps, so a rescale by `1/√nrm` after the flush leaves an exact norm of 1 when
   `nrm` is that sum. From a cache that is unknown or exact, with no floor, the call leaves the cache exact
   and the store released or within `FP_NORM_EPSILON` of norm 1. Every engine it returns is settled: a
   second call returns it unchanged. -/

namespace Qrack

noncomputable section

namespace QEngineCPU

variable (cfg : Config)

theorem parNorm_of_nonpos (v : StateVector) (n : Nat) (sized : v.size = n) (thresh : ℝ) (noFloor : thresh ≤ 0) :
    parNorm n v thresh = v.normSum := by
  rw [parNorm, StateVector.normSum, sized]
  exact Finset.sum_congr rfl fun i _ => if_neg (not_lt.mpr (noFloor.trans (Complex.normSq_nonneg _)))

theorem normSum_flush_scale (v : StateVector) (n : Nat) (sized : v.size = n) (thresh nrm : ℝ) (positive : 0 < nrm) :
    (v.mapBelow n fun _ amp => if 0 < thresh ∧ Complex.normSq amp < thresh then 0
      else polar (1 / Real.sqrt nrm) 0 * amp).normSum = parNorm n v thresh / nrm := by
  have scale : Complex.normSq ((1 / Real.sqrt nrm : ℝ) : ℂ) = 1 / nrm := by
    rw [Complex.normSq_ofReal, div_mul_div_comm, one_mul, Real.mul_self_sqrt positive.le]
  rw [StateVector.normSum, parNorm, Finset.sum_div, StateVector.mapBelow_size, sized]
  refine Finset.sum_congr rfl fun i mem => ?_
  simp only [StateVector.mapBelow, if_pos (Finset.mem_range.mp mem), polar_zero]
  by_cases below : Complex.normSq (v.amp i) < thresh
  · have positiveThresh : 0 < thresh := lt_of_le_of_lt (Complex.normSq_nonneg _) below
    rw [if_pos ⟨positiveThresh, below⟩, if_pos below, Complex.normSq_zero, zero_div]
  · rw [if_neg fun flushed => below flushed.2, if_neg below, Complex.normSq_mul, scale, one_div_mul_eq_div]

def Settled (e : QEngineCPU) : Prop :=
  e.stateVec = none ∨ (cfg.fpNormEpsilon < e.runningNorm ∧ |1 - e.runningNorm| ≤ cfg.fpNormEpsilon)

theorem normalize_of_settled (e : QEngineCPU) (settled : Settled cfg e) : normalize cfg e = e := by
  unfold normalize normalizeState
  split
  · rfl
  · next store =>
      have known : e.runningNorm ≠ cfg.defaultArg := by
        have := cfg.defaultArg_neg; have := cfg.fpNormEpsilon_pos
        rcases settled with none | ⟨above, -⟩
        · simp [none] at store
        · linarith
      rcases settled with none | ⟨above, near⟩
      · simp [none] at store
      · simp only [known, false_and, if_false, cfg.defaultArg_neg, if_true, normalizeScale, not_le.mpr above,
          near, mul_zero, cfg.fpNormEpsilon_pos.le, and_self]

theorem normalizeScale_settled (small : cfg.fpNormEpsilon < 1) (e : QEngineCPU) :
    Settled cfg (normalizeScale cfg e.runningNorm cfg.defaultArg 0 e) := by
  unfold normalizeScale
  split
  · exact .inl rfl
  · next above =>
      split
      · next near => exact .inr ⟨not_le.mp above, near.1⟩
      · exact .inr ⟨small, by simp [cfg.fpNormEpsilon_pos.le]⟩

theorem normalize_eq_normalizeScale (e : QEngineCPU) (v : StateVector) (store : e.stateVec = some v) :
    normalize cfg e = normalizeScale cfg
      (if e.runningNorm = cfg.defaultArg then updateRunningNorm cfg cfg.defaultArg e else e).runningNorm
      cfg.defaultArg 0 (if e.runningNorm = cfg.defaultArg then updateRunningNorm cfg cfg.defaultArg e else e) := by
  simp only [normalize, normalizeState, store, and_true, cfg.defaultArg_neg, if_true]

/-- `NormalizeState()` is idempotent: a second call changes nothing. -/
theorem normalize_idempotent (small : cfg.fpNormEpsilon < 1) (e : QEngineCPU) :
    normalize cfg (normalize cfg e) = normalize cfg e := by
  apply normalize_of_settled
  cases store : e.stateVec with
  | none =>
      rw [show normalize cfg e = e by simp [normalize, normalizeState, store]]
      exact .inl store
  | some v =>
      rw [normalize_eq_normalizeScale cfg e v store]
      exact normalizeScale_settled cfg small _

theorem normalize_idempotent_unknown :
    exampleConfig.fpNormEpsilon < 1 ∧
      normalize exampleConfig (normalize exampleConfig ⟨1, some ((StateVector.alloc 2).write 1 2), -999, true, false, 0⟩) =
        normalize exampleConfig ⟨1, some ((StateVector.alloc 2).write 1 2), -999, true, false, 0⟩ :=
  have small : exampleConfig.fpNormEpsilon < 1 := exampleConfig_small
  ⟨small, normalize_idempotent exampleConfig small _⟩

theorem normalizeScale_of_exact (e : QEngineCPU) (v : StateVector) (store : e.stateVec = some v)
    (sized : v.size = e.maxQPowerOcl) (noFloor : e.amplitudeFloor ≤ 0) (exact : e.runningNorm = v.normSum) :
    RunningNormCoherent cfg (normalizeScale cfg e.runningNorm cfg.defaultArg 0 e) ∧
      ((normalizeScale cfg e.runningNorm cfg.defaultArg 0 e).stateVec = none ∨
        |1 - (normalizeScale cfg e.runningNorm cfg.defaultArg 0 e).normSum| ≤ cfg.fpNormEpsilon) := by
  unfold normalizeScale
  split
  · exact ⟨.inr rfl, .inl rfl⟩
  · next above =>
      split
      · next near => exact ⟨.inr (by simp [normSum, store, exact]), .inr (by simpa [normSum, store, exact] using near.1)⟩
      · have positive : 0 < e.runningNorm := lt_of_lt_of_le cfg.fpNormEpsilon_pos (not_le.mp above).le
        have rescaled := normSum_flush_scale v e.maxQPowerOcl sized e.amplitudeFloor e.runningNorm positive
        rw [parNorm_of_nonpos v _ sized _ noFloor, ← exact, div_self positive.ne'] at rescaled
        simp only [cfg.defaultArg_neg, if_true, store, Option.map_some']
        refine ⟨.inr ?_, .inr ?_⟩ <;> simp only [normSum, rescaled, sub_self, abs_zero, cfg.fpNormEpsilon_pos.le]

theorem normalize_normalizes (e : QEngineCPU) (shaped : StoreShaped cfg e) (noFloor : e.amplitudeFloor ≤ 0)
    (coherent : RunningNormCoherent cfg e) :
    RunningNormCoherent cfg (normalize cfg e) ∧
      ((normalize cfg e).stateVec = none ∨ |1 - (normalize cfg e).normSum| ≤ cfg.fpNormEpsilon) := by
  cases store : e.stateVec with
  | none =>
      rw [show normalize cfg e = e by simp [normalize, normalizeState, store]]
      exact ⟨coherent, .inl store⟩
  | some v =>
      have sized := shaped.2 v store
      rw [normalize_eq_normalizeScale cfg e v store]
      split
      · unfold updateRunningNorm
        rw [store]
        dsimp only
        rw [if_pos cfg.defaultArg_neg, parNorm_of_nonpos v _ sized _ noFloor]
        split
        · simp [normalizeScale, cfg.fpNormEpsilon_pos.le, RunningNormCoherent, normSum]
        · exact normalizeScale_of_exact cfg { e with stateVec := some v, runningNorm := v.normSum } v rfl sized noFloor rfl
      · next known =>
          have exact : e.runningNorm = v.normSum := by
            simpa [RunningNormCoherent, known, normSum, store] using coherent
          exact normalizeScale_of_exact cfg e v store sized noFloor exact

theorem normalizeScale_shaped (nrm normThreshF phaseArg : ℝ) (e : QEngineCPU) (shaped : StoreShaped cfg e) :
    StoreShaped cfg (normalizeScale cfg nrm normThreshF phaseArg e) ∧
      (normalizeScale cfg nrm normThreshF phaseArg e).doNormalize = e.doNormalize := by
  unfold normalizeScale
  split
  · exact ⟨⟨shaped.1, by simp⟩, rfl⟩
  · split
    · exact ⟨shaped, rfl⟩
    · refine ⟨⟨shaped.1, fun w store => ?_⟩, rfl⟩
      obtain ⟨v, before, rfl⟩ := Option.map_eq_some'.mp store
      exact shaped.2 v before

theorem updateRunningNorm_shaped (normThresh : ℝ) (e : QEngineCPU) (shaped : StoreShaped cfg e) :
    StoreShaped cfg (updateRunningNorm cfg normThresh e) ∧ (updateRunningNorm cfg normThresh e).doNormalize = e.doNormalize := by
  unfold updateRunningNorm
  split
  · exact ⟨shaped, rfl⟩
  · generalize parNorm _ _ _ = r
    dsimp only
    split
    · exact ⟨⟨shaped.1, by simp⟩, rfl⟩
    · exact ⟨shaped, rfl⟩

theorem normalize_shaped (e : QEngineCPU) (shaped : StoreShaped cfg e) :
    StoreShaped cfg (normalize cfg e) ∧ (normalize cfg e).doNormalize = e.doNormalize := by
  cases store : e.stateVec with
  | none => rw [show normalize cfg e = e by simp [normalize, normalizeState, store]]; exact ⟨shaped, rfl⟩
  | some v =>
      rw [normalize_eq_normalizeScale cfg e v store]
      have prepared : StoreShaped cfg (if e.runningNorm = cfg.defaultArg then updateRunningNorm cfg cfg.defaultArg e else e) ∧
          (if e.runningNorm = cfg.defaultArg then updateRunningNorm cfg cfg.defaultArg e else e).doNormalize = e.doNormalize := by
        split
        · exact updateRunningNorm_shaped cfg _ e shaped
        · exact ⟨shaped, rfl⟩
      obtain ⟨scaled, flag⟩ := normalizeScale_shaped cfg _ _ _ _ prepared.1
      exact ⟨scaled, flag.trans prepared.2⟩

theorem updateRunningNorm_coherent (e : QEngineCPU) (shaped : StoreShaped cfg e) (noFloor : e.amplitudeFloor ≤ 0) :
    RunningNormCoherent cfg (updateRunningNorm cfg cfg.defaultArg e) := by
  unfold updateRunningNorm
  split
  · next store => exact .inr (by simp [normSum, store])
  · next v store =>
      dsimp only
      rw [if_pos cfg.defaultArg_neg, parNorm_of_nonpos v _ (shaped.2 v store) _ noFloor]
      split
      · exact .inr rfl
      · exact .inr (by simp [normSum, store])

end QEngineCPU

end

end Qrack
