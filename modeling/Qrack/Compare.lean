import Qrack.Queries

set_option autoImplicit false

/- `SumSqrDiff(toCompare)`, the distance the engine reports between two states: 1 when the other engine is
   missing or has another width, 0 for the engine itself, the other side's norm when one side has no store,
   and `1 - |⟨ψ|φ⟩|²`, clamped, otherwise. It reads the two engines the same way whichever is the caller, so
   the distance is symmetric. It cannot see a global phase: against a copy of itself turned by a unit
   factor, after the normalisation both sides run, it is `1 - ‖ψ‖⁴`, which is 0 on a unit store. -/

namespace Qrack

noncomputable section

def innerProduct (sched : Schedule) (maxQPowerOcl : Nat) (v w : StateVector) : ℂ :=
  ∑ i ∈ Finset.range sched.numCores, (List.range maxQPowerOcl).foldl
    (fun r lcv => Function.update r (sched.cpu lcv) (r (sched.cpu lcv) + (starRingEnd ℂ) (v.amp lcv) * w.amp lcv))
    (fun _ => (0 : ℂ)) i

def QEngineCPU.rephase (z : ℂ) (e : QEngineCPU) : QEngineCPU :=
  { e with stateVec := e.stateVec.map fun v => { v with amp := fun i => z * v.amp i } }

namespace Async

variable (cfg : Config) (sched : Schedule)

-- `SumSqrDiff(toCompare)`: the distance, and both engines as it leaves them. `aliased` says that `toCompare` is
-- this engine. A side with no store after its normalisation and `Finish()` makes the result the other side's norm,
-- which `UpdateRunningNorm()` recomputes.
def sumSqrDiff (toCompare : Option Async) (aliased : Bool) (a : Async) : ℝ × Async × Option Async :=
  match toCompare with
  | none => (1, a, none)
  | some b =>
      if aliased then (0, a, some b)
      else if a.engine.qubitCount ≠ b.engine.qubitCount then (1, a, some b)
      else
        let a := (if a.engine.doNormalize then a.normalize cfg else a).finish
        let b := (if b.engine.doNormalize then b.normalize cfg else b).finish
        match a.engine.stateVec, b.engine.stateVec with
        | none, none => (0, a, some b)
        | none, some _ =>
            let b' := b.engine.updateRunningNorm cfg cfg.defaultArg
            (b'.runningNorm, a, some ⟨b', []⟩)
        | some _, none =>
            let a' := a.engine.updateRunningNorm cfg cfg.defaultArg
            (a'.runningNorm, ⟨a', []⟩, some b)
        | some v, some w =>
            (1 - clampProb (Complex.normSq (innerProduct sched a.engine.maxQPowerOcl v w)), a, some b)

end Async

section Inner

variable (sched : Schedule) (N : Nat) (v w : StateVector)

theorem innerProduct_eq_sum :
    innerProduct sched N v w = ((List.range N).map fun i => (starRingEnd ℂ) (v.amp i) * w.amp i).sum := by
  rw [innerProduct, foldl_update_add_sum, Finset.sum_const_zero, zero_add]

theorem innerProduct_swap : innerProduct sched N w v = (starRingEnd ℂ) (innerProduct sched N v w) := by
  rw [innerProduct_eq_sum, innerProduct_eq_sum, map_list_sum, List.map_map]
  congr 1
  exact List.map_congr_left fun i _ => by simp [mul_comm]

theorem innerProduct_rephase (z : ℂ) :
    innerProduct sched v.size v { v with amp := fun i => z * v.amp i } = z * (v.normSum : ℂ) := by
  rw [innerProduct_eq_sum, StateVector.normSum, Complex.ofReal_sum, Finset.mul_sum]
  show _ = ((List.range v.size).map fun i => z * ((Complex.normSq (v.amp i) : ℝ) : ℂ)).sum
  congr 1
  exact List.map_congr_left fun i _ => by rw [Complex.normSq_eq_conj_mul_self]; ring

end Inner

section Phase

/- A unit factor `z` changes no norm, so `NormalizeState()` and `UpdateRunningNorm()` commute with the
global phase. -/

variable (cfg : Config) (z : ℂ) (unit : Complex.normSq z = 1)

@[simp] theorem rephase_qubitCount (e : QEngineCPU) : (e.rephase z).qubitCount = e.qubitCount := rfl
@[simp] theorem rephase_runningNorm (e : QEngineCPU) : (e.rephase z).runningNorm = e.runningNorm := rfl
@[simp] theorem rephase_doNormalize (e : QEngineCPU) : (e.rephase z).doNormalize = e.doNormalize := rfl
@[simp] theorem rephase_amplitudeFloor (e : QEngineCPU) : (e.rephase z).amplitudeFloor = e.amplitudeFloor := rfl

include unit in
theorem parNorm_rephase (n : Nat) (v : StateVector) (thresh : ℝ) :
    parNorm n { v with amp := fun i => z * v.amp i } thresh = parNorm n v thresh := by
  simp only [parNorm, Complex.normSq_mul, unit, one_mul]

include unit in
theorem updateRunningNorm_rephase (normThresh : ℝ) (e : QEngineCPU) :
    (e.rephase z).updateRunningNorm cfg normThresh = (e.updateRunningNorm cfg normThresh).rephase z := by
  unfold QEngineCPU.updateRunningNorm
  cases store : e.stateVec with
  | none => simp [QEngineCPU.rephase, store]
  | some v =>
      simp only [QEngineCPU.rephase, store, Option.map_some', QEngineCPU.maxQPowerOcl, parNorm_rephase z unit]
      split_ifs <;> rfl

include unit in
theorem normalizeScale_rephase (nrm normThreshF phaseArg : ℝ) (e : QEngineCPU) :
    (e.rephase z).normalizeScale cfg nrm normThreshF phaseArg = (e.normalizeScale cfg nrm normThreshF phaseArg).rephase z := by
  unfold QEngineCPU.normalizeScale
  by_cases low : nrm ≤ cfg.fpNormEpsilon
  · simp only [if_pos low]
    rfl
  by_cases near : |1 - nrm| ≤ cfg.fpNormEpsilon ∧ phaseArg * phaseArg ≤ cfg.fpNormEpsilon
  · simp only [if_neg low, if_pos near]
  simp only [if_neg low, if_neg near, rephase_amplitudeFloor]
  generalize (if normThreshF < 0 then e.amplitudeFloor else normThreshF) = thresh
  cases store : e.stateVec with
  | none => simp [QEngineCPU.rephase, store]
  | some v =>
      simp only [QEngineCPU.rephase, store, Option.map_some', QEngineCPU.mk.injEq, Option.some.injEq, and_true,
        true_and, QEngineCPU.maxQPowerOcl]
      ext i
      · rfl
      · simp only [StateVector.mapBelow, Complex.normSq_mul, unit, one_mul, mul_ite, mul_zero, mul_left_comm z]

include unit in
theorem normalize_rephase (e : QEngineCPU) : (e.rephase z).normalize cfg = (e.normalize cfg).rephase z := by
  cases store : e.stateVec with
  | none => simp [QEngineCPU.normalize, QEngineCPU.normalizeState, QEngineCPU.rephase, store]
  | some v =>
      rw [QEngineCPU.normalize_eq_normalizeScale cfg _ { v with amp := fun i => z * v.amp i }
          (by simp [QEngineCPU.rephase, store]),
        QEngineCPU.normalize_eq_normalizeScale cfg e v store, rephase_runningNorm]
      split
      · rw [updateRunningNorm_rephase cfg z unit, rephase_runningNorm, normalizeScale_rephase cfg z unit]
      · rw [rephase_runningNorm, normalizeScale_rephase cfg z unit]

end Phase

namespace Async

variable (cfg : Config) (sched : Schedule)

theorem settled_qubitCount (a : Async) (shaped : ∀ k ∈ a.queue, KeepsShape k) :
    (if a.engine.doNormalize then a.normalize cfg else a).finish.engine.qubitCount = a.engine.qubitCount := by
  have finished : a.finish.engine.qubitCount = a.engine.qubitCount := (keepsShape_runClosures a.queue shaped a.engine).1
  split
  · unfold normalize
    split
    · exact finished
    · simp only [finish, runClosures, List.foldl_nil]
      rw [(QEngineCPU.normalizeScale_keeps_shape cfg _ _ _ _).1]
      split
      · rw [(QEngineCPU.updateRunningNorm_keeps_shape cfg _ _).1]
        exact finished
      · exact finished
  · exact finished

/-- `SumSqrDiff` is symmetric: whichever of two engines makes the call, the distance is the same, as long
as each queue holds its engine's own closures. -/
theorem sumSqrDiff_comm (a b : Async) (shapedA : ∀ k ∈ a.queue, KeepsShape k) (shapedB : ∀ k ∈ b.queue, KeepsShape k)
    (aliased : Bool) :
    (a.sumSqrDiff cfg sched (some b) aliased).1 = (b.sumSqrDiff cfg sched (some a) aliased).1 := by
  by_cases aliasing : aliased
  · simp [sumSqrDiff, aliasing]
  by_cases width : a.engine.qubitCount = b.engine.qubitCount
  · have countA := settled_qubitCount cfg a shapedA
    have countB := settled_qubitCount cfg b shapedB
    simp only [sumSqrDiff, aliasing, width, ne_eq, not_true_eq_false, Bool.false_eq_true, if_false]
    generalize (if a.engine.doNormalize then a.normalize cfg else a).finish = A at countA ⊢
    generalize (if b.engine.doNormalize then b.normalize cfg else b).finish = B at countB ⊢
    have sameWidth : B.engine.maxQPowerOcl = A.engine.maxQPowerOcl := by
      simp only [QEngineCPU.maxQPowerOcl, countA, countB, width]
    rcases storeA : A.engine.stateVec with _ | v <;> rcases storeB : B.engine.stateVec with _ | w <;>
      simp only [storeA, storeB]
    rw [sameWidth, innerProduct_swap, Complex.normSq_conj]
  · simp [sumSqrDiff, aliasing, width, Ne.symm width]

theorem sumSqrDiff_comm_uniform :
    ((⟨uniformPair, []⟩ : Async).sumSqrDiff exampleConfig oneWorker (some ⟨uniformPair.rephase Complex.I, []⟩) false).1 =
      ((⟨uniformPair.rephase Complex.I, []⟩ : Async).sumSqrDiff exampleConfig oneWorker (some ⟨uniformPair, []⟩) false).1 :=
  sumSqrDiff_comm exampleConfig oneWorker _ _ (fun k mem => absurd mem (List.not_mem_nil k))
    (fun k mem => absurd mem (List.not_mem_nil k)) false

/-- `SumSqrDiff` cannot see a global phase. Against a copy of the engine (nothing queued, a store of
`2^qubitCount` amplitudes) whose store is turned by a unit factor `z`, both sides normalise alike and the
result is `1 - ‖ψ‖⁴` (clamped) for the store `ψ` that normalisation leaves; on a unit store it is 0. -/
theorem sumSqrDiff_rephase (e : QEngineCPU) (shaped : StoreShaped cfg e) (z : ℂ) (unit : Complex.normSq z = 1)
    (v : StateVector) (store : (if e.doNormalize then e.normalize cfg else e).stateVec = some v) :
    ((⟨e, []⟩ : Async).sumSqrDiff cfg sched (some ⟨e.rephase z, []⟩) false).1 = 1 - clampProb (v.normSum ^ 2) := by
  have settledE : (if e.doNormalize then (⟨e, []⟩ : Async).normalize cfg else ⟨e, []⟩).finish =
      ⟨if e.doNormalize then e.normalize cfg else e, []⟩ := by
    split <;> simp [normalize_idle, finish, runClosures]
  have settledZ : (if (e.rephase z).doNormalize then (⟨e.rephase z, []⟩ : Async).normalize cfg else ⟨e.rephase z, []⟩).finish =
      ⟨(if e.doNormalize then e.normalize cfg else e).rephase z, []⟩ := by
    simp only [rephase_doNormalize]
    split <;> simp [normalize_idle, finish, runClosures, normalize_rephase cfg z unit]
  have sized : v.size = (if e.doNormalize then e.normalize cfg else e).maxQPowerOcl := by
    refine (show StoreShaped cfg (if e.doNormalize then e.normalize cfg else e) from ?_).2 v store
    split
    · exact (QEngineCPU.normalize_shaped cfg e shaped).1
    · exact shaped
  simp only [sumSqrDiff, rephase_qubitCount, ne_eq, not_true_eq_false, Bool.false_eq_true, if_false, settledE, settledZ]
  simp only [QEngineCPU.rephase, store, Option.map_some']
  rw [← sized, innerProduct_rephase, Complex.normSq_mul, unit, one_mul, Complex.normSq_ofReal, sq]

theorem sumSqrDiff_rephase_uniform :
    Complex.normSq Complex.I = 1 ∧
      ((⟨uniformPair, []⟩ : Async).sumSqrDiff exampleConfig oneWorker (some ⟨uniformPair.rephase Complex.I, []⟩) false).1 = 0 :=
  ⟨Complex.normSq_I, by
    rw [sumSqrDiff_rephase exampleConfig oneWorker uniformPair ⟨by norm_num [uniformPair, exampleConfig],
      fun v store => by cases store; rfl⟩ Complex.I Complex.normSq_I _ rfl, uniformPair_normSum]
    norm_num [clampProb]⟩

end Async

end

end Qrack
