import Qrack.NormInvariant
import Qrack.Probability

set_option autoImplicit false

/- `ApplyM(regMask, result, nrm)`, the collapse step of a measurement. On an engine with a store it
   dispatches one closure that scales by `nrm` the amplitudes of the register whose `regMask` bits are
   `result`, zeroes the others and sets the cache to 1. Two calls compose as projections: the same outcome
   twice scales by the product of the factors, two different outcomes leave no amplitude, whether the
   closures wait in the queue or not. After `ProbMask(regMask, result)` has returned the outcome's
   probability `p` on an engine of norm at most 1, `ApplyM` with `1/√p` leaves a store of norm exactly 1, so
   the cache it sets is exact. A result with a bit outside the mask matches no index: the store is cleared
   while the cache says 1. Measuring a parity that `ForceMParity` has forced reproduces it. -/

namespace Qrack

noncomputable section

-- The closure `ApplyM(regMask, result, nrm)` dispatches.
def applyMKernel (regMask result : Nat) (nrm : ℂ) (e : QEngineCPU) : QEngineCPU :=
  match e.stateVec with
  | none => e -- a released store: the source closure dereferences the null stateVec here
  | some v => { e with
      stateVec := some (v.mapBelow e.maxQPowerOcl fun i amp => if i &&& regMask = result then nrm * amp else 0)
      runningNorm := 1 }

namespace Async

def applyM (defer : Bool) (regMask result : Nat) (nrm : ℂ) (a : Async) : Async :=
  match a.engine.stateVec with
  | none => a
  | some _ => a.dispatch defer [applyMKernel regMask result nrm]

end Async

section Projections

variable (regMask : Nat)

theorem applyMKernel_stateVec_isSome (result : Nat) (nrm : ℂ) (e : QEngineCPU) :
    (applyMKernel regMask result nrm e).stateVec.isSome = e.stateVec.isSome := by
  unfold applyMKernel; split <;> simp_all

theorem applyMKernel_same (result : Nat) (a b : ℂ) (e : QEngineCPU) :
    applyMKernel regMask result b (applyMKernel regMask result a e) = applyMKernel regMask result (b * a) e := by
  cases store : e.stateVec with
  | none => simp [applyMKernel, store]
  | some v =>
      simp only [applyMKernel, store, QEngineCPU.maxQPowerOcl, StateVector.mapBelow_mapBelow]
      congr 3
      funext i amp
      split <;> simp [mul_assoc]

theorem applyMKernel_other (result other : Nat) (apart : other ≠ result) (a b : ℂ) (e : QEngineCPU) :
    applyMKernel regMask other b (applyMKernel regMask result a e) = applyMKernel regMask result 0 e := by
  cases store : e.stateVec with
  | none => simp [applyMKernel, store]
  | some v =>
      simp only [applyMKernel, store, QEngineCPU.maxQPowerOcl, StateVector.mapBelow_mapBelow]
      congr 3
      funext i amp
      by_cases hit : i &&& regMask = result
      · simp [hit, Ne.symm apart]
      · simp [hit]

/-- Two `ApplyM` calls on an engine with nothing queued compose as projections, whether each closure
waits in the queue or runs at once: the same outcome twice is one call scaling by the product of the
factors, and two different outcomes are one call that leaves no amplitude of the register. -/
theorem applyM_projections (e : QEngineCPU) (result other : Nat) (a b : ℂ) (defer defer' : Bool) :
    (((⟨e, []⟩ : Async).applyM defer regMask result a).applyM defer' regMask other b).finish =
      if other = result then (⟨e, []⟩ : Async).applyM false regMask result (b * a)
      else (⟨e, []⟩ : Async).applyM false regMask result 0 := by
  cases store : e.stateVec with
  | none => split <;> simp [Async.applyM, store, Async.finish, runClosures]
  | some v =>
      have first : ∀ d : Bool, ((⟨e, []⟩ : Async).applyM d regMask result a).engine.stateVec.isSome := by
        intro d
        cases d <;> simp [Async.applyM, store, Async.dispatch, Async.finish, runClosures, applyMKernel_stateVec_isSome]
      obtain ⟨w, stored⟩ := Option.isSome_iff_exists.mp (first defer)
      have twice : (((⟨e, []⟩ : Async).applyM defer regMask result a).applyM defer' regMask other b).finish =
          ⟨applyMKernel regMask other b (applyMKernel regMask result a e), []⟩ := by
        rw [Async.applyM, stored]
        cases defer <;> cases defer' <;>
          simp [Async.applyM, store, Async.dispatch, Async.finish, runClosures]
      rw [twice]
      split
      · next same => subst same; simp [Async.applyM, store, Async.dispatch, Async.finish, runClosures, applyMKernel_same]
      · next apart => simp [Async.applyM, store, Async.dispatch, Async.finish, runClosures, applyMKernel_other regMask result
          other apart]

end Projections

section Normalised

theorem applyMKernel_normSum (e : QEngineCPU) (v : StateVector) (store : e.stateVec = some v)
    (sized : v.size = e.maxQPowerOcl) (regMask result : Nat) (nrm : ℂ) :
    (applyMKernel regMask result nrm e).normSum = Complex.normSq nrm *
      (((List.range e.maxQPowerOcl).filter fun i => i &&& regMask == result).map fun i => Complex.normSq (v.amp i)).sum := by
  have inRange : ∀ i ∈ List.range e.maxQPowerOcl, Complex.normSq ((v.mapBelow e.maxQPowerOcl fun i amp =>
      if i &&& regMask = result then nrm * amp else 0).amp i) =
        if i &&& regMask = result then Complex.normSq nrm * Complex.normSq (v.amp i) else 0 := by
    intro i mem
    simp only [StateVector.mapBelow, if_pos (List.mem_range.mp mem)]
    split <;> simp
  simp only [applyMKernel, store, QEngineCPU.normSum, StateVector.normSum_eq_sum_range, StateVector.mapBelow_size, sized]
  rw [List.map_congr_left inRange, List.sum_map_ite, ← List.sum_map_mul_left]
  simp only [List.map_const', List.sum_replicate, smul_zero, add_zero]
  rfl

theorem clampProb_of_mem {p : ℝ} (nonneg : 0 ≤ p) (atMost : p ≤ 1) : clampProb p = p := by
  rw [clampProb, min_eq_right atMost, max_eq_right nonneg]

theorem classNorm_le_normSum (v : StateVector) (N : Nat) (sized : v.size = N) (keep : Nat → Bool) :
    (((List.range N).filter keep).map fun i => Complex.normSq (v.amp i)).sum ≤ v.normSum := by
  rw [StateVector.normSum_eq_sum_range, sized]
  exact ((List.filter_sublist _).map _).sum_le_sum fun x mem => by
    obtain ⟨i, -, rfl⟩ := List.mem_map.mp mem
    exact Complex.normSq_nonneg _

theorem classNorm_nonneg (v : StateVector) (L : List Nat) : 0 ≤ (L.map fun i => Complex.normSq (v.amp i)).sum :=
  List.sum_nonneg fun _ mem => by
    obtain ⟨i, -, rfl⟩ := List.mem_map.mp mem
    exact Complex.normSq_nonneg _

variable (cfg : Config) (sched : Schedule)

/-- Measurement collapse: after `ProbMask(regMask, result)` has returned a positive probability `p` on an
engine whose store of `2 ^ qubitCount` amplitudes has norm at most 1, `ApplyM(regMask, result, 1/√p)`
leaves a store of norm exactly 1 and the cache 1, whether its closure waits in the queue or not. -/
theorem applyM_after_probMask_normalizes (a r : Async) (v : StateVector) (mask result : Nat)
    (inside : mask < a.engine.maxQPowerOcl) (sub : result &&& mask = result)
    (settled : (if a.engine.doNormalize then a.normalize cfg else a).finish = r) (store : r.engine.stateVec = some v)
    (sized : v.size = r.engine.maxQPowerOcl) (within : mask < r.engine.maxQPowerOcl) (atMost : v.normSum ≤ 1)
    (p : ℝ) (query : a.probMask cfg sched mask result = .ok (p, r)) (positive : 0 < p) (defer : Bool) :
    (r.applyM defer mask result ((1 / Real.sqrt p : ℝ) : ℂ)).finish.engine.normSum = 1 ∧
      (r.applyM defer mask result ((1 / Real.sqrt p : ℝ) : ℂ)).finish.engine.runningNorm = 1 := by
  rw [Async.probMask_eq_clamp_sum cfg sched a r v mask result inside sub settled store within] at query
  have classNorm := classNorm_le_normSum v _ sized fun i => i &&& mask == result
  rw [clampProb_of_mem (classNorm_nonneg v _) (classNorm.trans atMost)] at query
  obtain ⟨rfl, -⟩ := Prod.mk.inj (Except.ok.inj query)
  have settledQueue : r.queue = [] := by rw [← settled]; rfl
  have finished : ∀ nrm : ℂ, (r.applyM defer mask result nrm).finish = ⟨applyMKernel mask result nrm r.engine, []⟩ := by
    intro nrm
    simp only [Async.applyM, store, Async.finish_dispatch]
    simp [Async.finish, settledQueue, runClosures]
  rw [finished, applyMKernel_normSum r.engine v store sized, Complex.normSq_ofReal, div_mul_div_comm, one_mul,
    Real.mul_self_sqrt positive.le, one_div_mul_cancel positive.ne']
  exact ⟨rfl, by simp [applyMKernel, store]⟩

theorem applyM_after_probMask_normalizes_ground :
    (⟨⟨1, some ((StateVector.alloc 2).write 0 1), 1, false, false, 0⟩, []⟩ : Async).probMask exampleConfig oneWorker 1 0 =
        .ok (1, ⟨⟨1, some ((StateVector.alloc 2).write 0 1), 1, false, false, 0⟩, []⟩) ∧
      ((⟨⟨1, some ((StateVector.alloc 2).write 0 1), 1, false, false, 0⟩, []⟩ : Async).applyM true 1 0
        ((1 / Real.sqrt 1 : ℝ) : ℂ)).finish.engine.normSum = 1 ∧
      ((⟨⟨1, some ((StateVector.alloc 2).write 0 1), 1, false, false, 0⟩, []⟩ : Async).applyM true 1 0
        ((1 / Real.sqrt 1 : ℝ) : ℂ)).finish.engine.runningNorm = 1 :=
  have settled : (if (⟨⟨1, some ((StateVector.alloc 2).write 0 1), 1, false, false, 0⟩, []⟩ : Async).engine.doNormalize then
      (⟨⟨1, some ((StateVector.alloc 2).write 0 1), 1, false, false, 0⟩, []⟩ : Async).normalize exampleConfig
      else ⟨⟨1, some ((StateVector.alloc 2).write 0 1), 1, false, false, 0⟩, []⟩).finish =
      ⟨⟨1, some ((StateVector.alloc 2).write 0 1), 1, false, false, 0⟩, []⟩ := rfl
  have atMost : ((StateVector.alloc 2).write 0 1).normSum ≤ 1 := by
    simp [StateVector.normSum, Finset.sum_range_succ, StateVector.write, StateVector.alloc]
  have query : (⟨⟨1, some ((StateVector.alloc 2).write 0 1), 1, false, false, 0⟩, []⟩ : Async).probMask exampleConfig
      oneWorker 1 0 = .ok (1, ⟨⟨1, some ((StateVector.alloc 2).write 0 1), 1, false, false, 0⟩, []⟩) := by
    rw [Async.probMask_eq_clamp_sum exampleConfig oneWorker _ _ ((StateVector.alloc 2).write 0 1) 1 0 (by decide) rfl
      settled rfl (by decide)]
    have zeroClass : ((List.range (2 ^ 1)).filter fun i => i &&& 1 == 0) = [0] := by decide
    simp only [QEngineCPU.maxQPowerOcl, zeroClass]
    simp [StateVector.write, StateVector.alloc, clampProb]
  ⟨query, applyM_after_probMask_normalizes exampleConfig oneWorker _ _ _ 1 0 (by decide) rfl settled rfl rfl (by decide)
    atMost 1 query one_pos true⟩

/-- A result with a bit outside the mask matches no index: `ApplyM` clears the store of
`2 ^ qubitCount` amplitudes whatever its factor, while the cache it sets says the norm is 1. -/
theorem applyM_outside_mask_clears (e : QEngineCPU) (v : StateVector) (store : e.stateVec = some v)
    (sized : v.size = e.maxQPowerOcl) (regMask result : Nat) (outside : result &&& regMask ≠ result) (nrm : ℂ)
    (defer : Bool) :
    ((⟨e, []⟩ : Async).applyM defer regMask result nrm).finish.engine.normSum = 0 ∧
      ((⟨e, []⟩ : Async).applyM defer regMask result nrm).finish.engine.runningNorm = 1 := by
  have noMatch : ((List.range e.maxQPowerOcl).filter fun i => i &&& regMask == result) = [] :=
    List.filter_eq_nil_iff.mpr fun i _ hit => outside (by
      rw [← eq_of_beq hit, Nat.and_assoc, Nat.and_self])
  have finished : ((⟨e, []⟩ : Async).applyM defer regMask result nrm).finish = ⟨applyMKernel regMask result nrm e, []⟩ := by
    simp only [Async.applyM, store, Async.finish_dispatch]
    simp [Async.finish, runClosures]
  rw [finished, applyMKernel_normSum e v store sized, noMatch]
  exact ⟨by simp, by simp [applyMKernel, store]⟩

theorem applyM_outside_mask_clears_ground :
    (2 &&& 1 : Nat) ≠ 2 ∧
      ((⟨⟨1, some ((StateVector.alloc 2).write 0 1), 1, false, false, 0⟩, []⟩ : Async).applyM false 1 2 1).finish.engine.normSum
        = 0 ∧
      ((⟨⟨1, some ((StateVector.alloc 2).write 0 1), 1, false, false, 0⟩, []⟩ : Async).applyM false 1 2 1).finish.engine.runningNorm
        = 1 :=
  have outside : (2 &&& 1 : Nat) ≠ 2 := by decide
  ⟨outside, applyM_outside_mask_clears _ _ rfl rfl 1 2 outside 1 false⟩

theorem oddClass_scale (mask N : Nat) (c : ℂ) (w u : StateVector) (scaled : ∀ i < N, w.amp i = c * u.amp i) :
    (((List.range N).filter (oddParity mask)).map fun i => Complex.normSq (w.amp i)).sum =
      Complex.normSq c * (((List.range N).filter (oddParity mask)).map fun i => Complex.normSq (u.amp i)).sum := by
  rw [← List.sum_map_mul_left]
  congr 1
  exact List.map_congr_left fun i mem => by
    rw [scaled i (List.mem_range.mp (List.mem_filter.mp mem).1), Complex.normSq_mul]

theorem oddClass_forceMParityLoop (mask : Nat) (result : Bool) (N : Nat) (v : StateVector) :
    (((List.range N).filter (oddParity mask)).map
      fun i => Complex.normSq ((forceMParityLoop sched mask result N v).1.amp i)).sum =
      if result then (forceMParityLoop sched mask result N v).2 else 0 := by
  obtain ⟨amp, chance⟩ := forceMParityLoop_spec sched mask result N v
  rw [chance]
  cases result
  · exact List.sum_eq_zero fun x mem => by
      obtain ⟨i, kept, rfl⟩ := List.mem_map.mp mem
      obtain ⟨below, odd⟩ := List.mem_filter.mp kept
      simp [amp, List.mem_range.mp below, odd]
  · simp only [beq_true, if_true]
    exact congrArg List.sum (List.map_congr_left fun i mem => by simp [amp, (List.mem_filter.mp mem).2])

theorem normalizeScale_rescales (e : QEngineCPU) (u : StateVector) (store : e.stateVec = some u)
    (noFloor : e.amplitudeFloor ≤ 0) (P : ℝ) (above : cfg.fpNormEpsilon < P) :
    ∃ w, (e.normalizeScale cfg P cfg.defaultArg 0).stateVec = some w ∧ ∀ i < e.maxQPowerOcl,
      w.amp i = ((if |1 - P| ≤ cfg.fpNormEpsilon then 1 else 1 / Real.sqrt P : ℝ) : ℂ) * u.amp i := by
  simp only [QEngineCPU.normalizeScale, if_neg (not_le.mpr above), mul_zero, cfg.fpNormEpsilon_pos.le, and_true]
  split
  · next near => exact ⟨u, store, fun i _ => by simp [near]⟩
  · next far => exact ⟨_, by rw [store]; rfl, fun i below => by
      simp [far, StateVector.mapBelow, below, cfg.defaultArg_neg, not_lt.mpr noFloor]⟩

theorem clampProb_near_one {P : ℝ} (nonneg : 0 ≤ P) (near : |1 - P| ≤ cfg.fpNormEpsilon) :
    |1 - clampProb P| ≤ cfg.fpNormEpsilon := by
  rcases le_total P 1 with atMost | above
  · rwa [clampProb_of_mem nonneg atMost]
  · simp [clampProb, min_eq_left above, cfg.fpNormEpsilon_pos.le]

theorem forceMParity_settles (e : QEngineCPU) (loop : StateVector × ℝ) (known : loop.2 ≠ cfg.defaultArg) :
    (if (if e.doNormalize then { e with stateVec := some loop.1, runningNorm := loop.2 }
          else QEngineCPU.normalizeScale cfg loop.2 cfg.defaultArg 0
            { e with stateVec := some loop.1, runningNorm := loop.2 }).doNormalize then
        (⟨if e.doNormalize then { e with stateVec := some loop.1, runningNorm := loop.2 }
          else QEngineCPU.normalizeScale cfg loop.2 cfg.defaultArg 0
            { e with stateVec := some loop.1, runningNorm := loop.2 }, []⟩ : Async).normalize cfg
      else ⟨if e.doNormalize then { e with stateVec := some loop.1, runningNorm := loop.2 }
          else QEngineCPU.normalizeScale cfg loop.2 cfg.defaultArg 0
            { e with stateVec := some loop.1, runningNorm := loop.2 }, []⟩).finish =
      ⟨QEngineCPU.normalizeScale cfg loop.2 cfg.defaultArg 0 { e with stateVec := some loop.1, runningNorm := loop.2 },
        []⟩ := by
  by_cases normalizing : e.doNormalize = true
  · simp [normalizing, Async.normalize, Async.finish, runClosures, known]
  · have flag : (QEngineCPU.normalizeScale cfg loop.2 cfg.defaultArg 0
        { e with stateVec := some loop.1, runningNorm := loop.2 }).doNormalize = false := by
      simp only [QEngineCPU.normalizeScale]
      split_ifs <;> simpa [QEngineCPU.zeroAmplitudes] using normalizing
    rw [if_neg normalizing, flag]
    rfl

/-- Measuring a forced parity again reproduces it: once `ForceMParity(mask, result)` has projected an engine
with no floor onto a parity class of norm above `FP_NORM_EPSILON`, in either normalisation mode, the
`ProbParity(mask)` that follows returns 0 for an even result and a probability within `FP_NORM_EPSILON` of 1
for an odd one (exactly 1 when the projection rescaled). -/
theorem forceMParity_then_probParity (e : QEngineCPU) (v : StateVector) (store : e.stateVec = some v)
    (noFloor : e.amplitudeFloor ≤ 0) (mask : Nat) (inside : mask < e.maxQPowerOcl) (nonzero : mask ≠ 0)
    (result : Bool) (rand : ℝ)
    (likely : cfg.fpNormEpsilon < (((List.range e.maxQPowerOcl).filter fun i => oddParity mask i == result).map
      fun i => Complex.normSq (v.amp i)).sum) :
    ∃ a' p r, (⟨e, []⟩ : Async).forceMParity cfg sched mask result true rand = .ok (result, a') ∧
      a'.probParity cfg sched mask = .ok (p, r) ∧
      (result = true → |1 - p| ≤ cfg.fpNormEpsilon) ∧ (result = false → p = 0) := by
  have eps := cfg.fpNormEpsilon_pos
  rw [Async.forceMParity_idle cfg sched e v store mask inside nonzero result rand]
  have classes := oddClass_forceMParityLoop sched mask result e.maxQPowerOcl v
  rw [← (forceMParityLoop_spec sched mask result e.maxQPowerOcl v).2] at likely
  generalize forceMParityLoop sched mask result e.maxQPowerOcl v = loop at classes likely ⊢
  have settled := forceMParity_settles cfg e loop (ne_of_gt ((eps.trans likely).trans' cfg.defaultArg_neg))
  obtain ⟨w, written, scaled⟩ := normalizeScale_rescales cfg { e with stateVec := some loop.1, runningNorm := loop.2 }
    loop.1 rfl noFloor loop.2 likely
  have count := (QEngineCPU.normalizeScale_keeps_shape cfg loop.2 cfg.defaultArg 0
    { e with stateVec := some loop.1, runningNorm := loop.2 }).1
  have inside' : mask < (if e.doNormalize then { e with stateVec := some loop.1, runningNorm := loop.2 }
      else QEngineCPU.normalizeScale cfg loop.2 cfg.defaultArg 0
        { e with stateVec := some loop.1, runningNorm := loop.2 }).maxQPowerOcl := by
    split <;> simpa [QEngineCPU.maxQPowerOcl, count] using inside
  have sameSize : (QEngineCPU.normalizeScale cfg loop.2 cfg.defaultArg 0
      { e with stateVec := some loop.1, runningNorm := loop.2 }).maxQPowerOcl = e.maxQPowerOcl := congrArg (2 ^ ·) count
  refine ⟨_, _, _, rfl, Async.probParity_eq_clamp_sum cfg sched _ _ w mask inside' nonzero settled written,
    fun set => ?_, fun clear => ?_⟩
  all_goals
    dsimp only
    rw [sameSize, oddClass_scale mask e.maxQPowerOcl _ w loop.1 scaled, classes]
  · subst set
    by_cases near : |1 - loop.2| ≤ cfg.fpNormEpsilon
    · simpa [near] using clampProb_near_one cfg (eps.trans likely).le near
    · have positive : 0 < loop.2 := eps.trans likely
      simp only [if_neg near, if_true, Complex.normSq_ofReal, one_div, ← sq, inv_pow, Real.sq_sqrt positive.le,
        inv_mul_cancel₀ positive.ne']
      simp [clampProb, eps.le]
  · subst clear
    simp [clampProb]

theorem forceMParity_then_probParity_one :
    exampleConfig.fpNormEpsilon < (((List.range 2).filter fun i => oddParity 1 i == true).map
      fun i => Complex.normSq (((StateVector.alloc 2).write 1 1).amp i)).sum ∧
    ∃ a' p r, (⟨⟨1, some ((StateVector.alloc 2).write 1 1), 1, false, false, 0⟩, []⟩ : Async).forceMParity
        exampleConfig oneWorker 1 true true 0 = .ok (true, a') ∧ a'.probParity exampleConfig oneWorker 1 = .ok (p, r) ∧
      (true = true → |1 - p| ≤ exampleConfig.fpNormEpsilon) ∧ (true = false → p = 0) :=
  have odd : ((List.range 2).filter fun i => oddParity 1 i == true) = [1] := by decide
  have likely : exampleConfig.fpNormEpsilon < (((List.range 2).filter fun i => oddParity 1 i == true).map
      fun i => Complex.normSq (((StateVector.alloc 2).write 1 1).amp i)).sum := by
    rw [odd]
    norm_num [StateVector.write, StateVector.alloc, exampleConfig]
  ⟨likely, forceMParity_then_probParity exampleConfig oneWorker _ _ rfl le_rfl 1 (by decide) (by decide) true 0 likely⟩

end Normalised

end

end Qrack
