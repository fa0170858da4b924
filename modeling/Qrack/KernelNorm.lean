import Qrack.Apply2x2

set_option autoImplicit false

namespace Qrack

noncomputable section

def oneWorker : Schedule := ⟨1, fun _ => 0, fun _ => Nat.one_pos⟩

def identity2 : Mtrx := ![1, 0, 0, 1]

def pauliX : Mtrx := ![0, 1, 1, 0]

theorem sum_update_add {M : Type} [AddCommMonoid M] (r : Nat → M) (W c : Nat) (inside : c < W) (x : M) :
    ∑ i ∈ Finset.range W, Function.update r c (r c + x) i = ∑ i ∈ Finset.range W, r i + x := by
  have mem := Finset.mem_range.mpr inside
  rw [Finset.sum_update_of_mem mem, Finset.sum_eq_add_sum_diff_singleton mem r]
  exact add_right_comm _ _ _

theorem foldl_update_add_sum {M : Type} [AddCommMonoid M] (sched : Schedule) (x : Nat → M) (L : List Nat) (r : Nat → M) :
    ∑ i ∈ Finset.range sched.numCores,
        L.foldl (fun r l => Function.update r (sched.cpu l) (r (sched.cpu l) + x l)) r i =
      ∑ i ∈ Finset.range sched.numCores, r i + (L.map x).sum := by
  induction L generalizing r with
  | nil => simp
  | cons l L ih =>
      rw [List.foldl_cons, ih, sum_update_add r _ _ (sched.cpu_lt l), List.map_cons, List.sum_cons]
      exact add_assoc _ _ _

section Calc

variable (o1 o2 : Nat) (sched : Schedule) (fn : ℂ → ℂ → ℂ × ℂ) (L : List Nat) (v : StateVector)

def pairNorm (lcv : Nat) : ℝ :=
  Complex.normSq (fn (v.amp (lcv + o1)) (v.amp (lcv + o2))).1 + Complex.normSq (fn (v.amp (lcv + o1)) (v.amp (lcv + o2))).2

theorem normCalc_packed_total (disjoint : (L.map (· + o1) ++ L.map (· + o2)).Nodup) :
    ∑ i ∈ Finset.range sched.numCores,
        (L.foldl (normCalcKernel .packed o1 o2 sched fn) ⟨v, fun _ => 0⟩).rngNrm i =
      (L.map (pairNorm o1 o2 fn v)).sum := by
  rw [normCalcKernel, StateVector.foldl_accumStep_rngNrm _ _ _ _ L _ disjoint]
  simpa [pairNorm] using foldl_update_add_sum sched (pairNorm o1 o2 fn v) L (fun _ => 0)

end Calc

def groundPair (e : QEngineCPU) (runningNorm : ℝ) : QEngineCPU :=
  { e with qubitCount := 2, stateVec := some ((StateVector.alloc 4).write 0 1), runningNorm, doNormalize := true }

theorem groundPair_normSum (e : QEngineCPU) (runningNorm : ℝ) : (groundPair e runningNorm).normSum = 1 := by
  simp [groundPair, QEngineCPU.normSum, StateVector.normSum, Finset.sum_range_succ]

/-- The identity on qubit 0 of `|00⟩`, norm recomputed without a floor by one worker: the packed build
keeps the state, the scalar build keeps the norm of the last pair only, 0, and releases the store. -/
theorem apply2x2_builds_disagree (cfg : Config) (e : QEngineCPU) (small : cfg.fpNormEpsilon < 1) :
    QEngineCPU.apply2x2 { cfg with build := .packed } oneWorker 0 1 identity2 [1] true 0 (groundPair e 1) =
        .ok (groundPair e 1) ∧
      QEngineCPU.apply2x2 { cfg with build := .scalar } oneWorker 0 1 identity2 [1] true 0 (groundPair e 1) =
        .ok (groundPair e 1).zeroAmplitudes := by
  have masks : parForMask 4 [1] = [0, 2] := by decide
  have eps := cfg.fpNormEpsilon_pos
  have r1 : ¬ cfg.real1Epsilon < 0 := not_lt.mpr cfg.real1Epsilon_pos.le
  constructor
  · simp [groundPair, QEngineCPU.apply2x2, QEngineCPU.apply2x2Call, runClosures, Except.map, apply2x2Kernel, QEngineCPU.maxQPowerOcl, checkQPowers, masks,
      kernelShape, isNorm0, identity2, eps.le, r1, normCalcKernel, StateVector.accumStep, StateVector.pairStep,
      kernelProduct, oneWorker, StateVector.write2, not_le.mpr small]
    ext i
    · rfl
    · by_cases i = 0 <;> simp_all [StateVector.write_amp]
  · simp [groundPair, QEngineCPU.apply2x2, QEngineCPU.apply2x2Call, runClosures, Except.map, apply2x2Kernel, QEngineCPU.maxQPowerOcl, checkQPowers, masks,
      kernelShape, isNorm0, identity2, eps.le, r1, normCalcKernel, StateVector.accumStep, StateVector.pairStep,
      kernelProduct, oneWorker, StateVector.write2, QEngineCPU.zeroAmplitudes]

theorem apply2x2_builds_disagree_example :
    exampleConfig.fpNormEpsilon < 1 ∧
    (QEngineCPU.apply2x2 { exampleConfig with build := .packed } oneWorker 0 1 identity2 [1] true 0
        (groundPair ⟨0, none, 0, false, false, 0⟩ 1) = .ok (groundPair ⟨0, none, 0, false, false, 0⟩ 1) ∧
      QEngineCPU.apply2x2 { exampleConfig with build := .scalar } oneWorker 0 1 identity2 [1] true 0
        (groundPair ⟨0, none, 0, false, false, 0⟩ 1) = .ok (groundPair ⟨0, none, 0, false, false, 0⟩ 1).zeroAmplitudes) :=
  have small : exampleConfig.fpNormEpsilon < 1 := exampleConfig_small
  ⟨small, apply2x2_builds_disagree exampleConfig ⟨0, none, 0, false, false, 0⟩ small⟩

/-- A controlled X (control qubit 1, target qubit 0) on `|00⟩` with an unknown cache recomputes the
norm over the controlled pair `(2, 3)` only, finds 0 and releases the store of a state of norm 1. -/
theorem apply2x2_controlled_releases_store (cfg : Config) (sched : Schedule) (e : QEngineCPU) :
    QEngineCPU.apply2x2 cfg sched 2 3 pauliX [1, 2] true 0 (groundPair e cfg.defaultArg) =
      .ok (groundPair e cfg.defaultArg).zeroAmplitudes ∧ (groundPair e cfg.defaultArg).normSum = 1 := by
  have masks : parForMask 4 [1, 2] = [0] := by decide
  have eps := cfg.fpNormEpsilon_pos
  have unknown := cfg.defaultArg_neg
  have r1 : ¬ cfg.real1Epsilon < 0 := not_lt.mpr cfg.real1Epsilon_pos.le
  refine ⟨?_, groundPair_normSum e _⟩
  cases build : cfg.build <;>
    simp [groundPair, QEngineCPU.apply2x2, QEngineCPU.apply2x2Call, runClosures, Except.map, apply2x2Kernel, QEngineCPU.maxQPowerOcl, checkQPowers, masks,
      kernelShape, isNorm0, pauliX, eps.le, r1, normCalcKernel, StateVector.accumStep, StateVector.pairStep,
      kernelProduct, StateVector.write2, QEngineCPU.zeroAmplitudes, unknown.le, unknown.not_lt, build,
      Finset.sum_update_of_mem (Finset.mem_range.mpr (sched.cpu_lt 0))] <;>
    split <;> simp [eps.le]

end

end Qrack
