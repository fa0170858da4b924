import Qrack.UniformlyControlled

set_option autoImplicit false

namespace Qrack

noncomputable section

def RunningNormCoherent (cfg : Config) (e : QEngineCPU) : Prop :=
  e.runningNorm = cfg.defaultArg ∨ e.runningNorm = e.normSum

def identityMtrxs (k : Nat) : ℂ := if k % 4 = 0 ∨ k % 4 = 3 then 1 else 0

variable (cfg : Config) (sched : Schedule)

theorem ucsbScale_eq_none (e : QEngineCPU) (small : e.runningNorm ≤ 1) : ucsbScale cfg e = none := by
  have nrm_ge : 1 ≤ (if 0 < e.runningNorm then 1 / Real.sqrt e.runningNorm else 1) := by
    split
    · rw [le_div_iff₀ (Real.sqrt_pos.mpr ‹_›), one_mul]
      exact Real.sqrt_le_one.mpr small
    · exact le_rfl
  have := cfg.fpNormEpsilon_pos
  simp only [ucsbScale]
  rw [if_neg]
  intro hold
  linarith [hold.2]

theorem ucsbPair_identity (qPowers : List Nat) (lcv : Nat) (y0 y1 : ℂ) :
    ucsbPair identityMtrxs qPowers [] 0 none lcv y0 y1 = (y0, y1) := by
  generalize packControls qPowers lcv = m
  have slot1 : (m * 4 + 1) % 4 = 1 := by omega
  have slot2 : (m * 4 + 2) % 4 = 2 := by omega
  have slot3 : (m * 4 + 3) % 4 = 3 := by omega
  simp [ucsbPair, identityMtrxs, depositSkips_nil, Nat.add_comm _ (m * 4), slot1, slot2, slot3]

theorem pairStep_fixed (lo hi : Nat → Nat) (f : Nat → ℂ → ℂ → ℂ × ℂ) (fixed : ∀ l y0 y1, f l y0 y1 = (y0, y1))
    (v : StateVector) (l : Nat) : StateVector.pairStep lo hi f v l = v := by
  simp only [StateVector.pairStep, fixed, StateVector.write2, StateVector.write, Function.update_eq_self]

theorem uniformlyControlled_identity_resets_runningNorm (e : QEngineCPU) (v : StateVector)
    (store : e.stateVec = some v) (normalizing : e.doNormalize = true) (small : e.runningNorm ≤ 1)
    (controls : List Nat) (nonempty : controls ≠ []) (qubitIndex : Nat) (target : qubitIndex < e.qubitCount)
    (valid : qbIdArrayIsBad controls e.qubitCount = false) :
    e.uniformlyControlledSingleBit cfg sched controls qubitIndex identityMtrxs [] 0 = .ok { e with runningNorm := 1 } := by
  rw [uniformlyControlledSingleBit_eq cfg sched controls qubitIndex identityMtrxs [] 0 e v store nonempty target valid]
  have unchanged : ucsbLoop cfg controls qubitIndex identityMtrxs [] 0 e v = v := by
    simp only [ucsbLoop, ucsbScale_eq_none cfg e small]
    exact List.foldl_fixed' (fun l => pairStep_fixed _ _ _ (ucsbPair_identity _) v l) _
  cases e
  simp_all

/-- The failing run on two qubits: `SetPermutation(0)` and `SetAmplitude(0, 1/2)` leave a coherent
cache of 1/4; `UniformlyControlledSingleBit` with identity payloads then sets it to 1 while the norm
stays 1/4. -/
theorem setAmplitude_then_uniformlyControlled_stale (e : QEngineCPU) :
    let start := QEngineCPU.setPermutation 0 none 0
      { e with qubitCount := 2, stateVec := none, doNormalize := true, randGlobalPhase := false }
    ∃ e2 e3, start.setAmplitude cfg 0 (1 / 2) = .ok e2 ∧ RunningNormCoherent cfg e2 ∧
      e2.uniformlyControlledSingleBit cfg sched [1] 0 identityMtrxs [] 0 = .ok e3 ∧
      e3.runningNorm = 1 ∧ e3.normSum = 1 / 4 := by
  intro start
  have known : (1 : ℝ) ≠ cfg.defaultArg := by linarith [cfg.defaultArg_neg]
  let v := ((StateVector.alloc 4).clear.write 0 1).write 0 (1 / 2)
  have norm_v : v.normSum = 1 / 4 := by
    simp [v, StateVector.normSum, Finset.sum_range_succ, Complex.normSq_apply]
    norm_num
  let e2 := { start with runningNorm := 1 / 4, stateVec := some v }
  have step2 : start.setAmplitude cfg 0 (1 / 2) = .ok e2 := by
    simp only [start, e2, v, QEngineCPU.setAmplitude, QEngineCPU.setPermutation, QEngineCPU.maxQPowerOcl,
      QEngineCPU.allocatedStateVec, StateVector.read]
    simp [known, Complex.normSq_apply]
    norm_num
    rfl
  refine ⟨e2, _, step2, .inr (by simp [e2, QEngineCPU.normSum, norm_v]),
    uniformlyControlled_identity_resets_runningNorm cfg sched e2 v rfl rfl (by norm_num) [1] (by simp) 0
      (by simp [e2, start, QEngineCPU.setPermutation])
      (by simp [qbIdArrayIsBad, e2, start, QEngineCPU.setPermutation]), rfl, ?_⟩
  simp [e2, QEngineCPU.normSum, norm_v]

/-- From the zero-amplitude state, whose cache 0 is known and coherent, `SetAmplitude` of a nonzero
amplitude at any permutation of the register updates the cache from the absent store. -/
theorem setAmplitude_reads_absent_store (e : QEngineCPU) (perm : Nat) (inside : perm < e.maxQPowerOcl) (amp : ℂ)
    (nonzero : amp ≠ 0) :
    RunningNormCoherent cfg e.zeroAmplitudes ∧ e.zeroAmplitudes.setAmplitude cfg perm amp = .error .nullStateVec := by
  have known : (0 : ℝ) ≠ cfg.defaultArg := (cfg.defaultArg_neg).ne'
  refine ⟨.inr rfl, ?_⟩
  simp [QEngineCPU.setAmplitude, QEngineCPU.zeroAmplitudes, nonzero, known]
  exact inside

theorem setAmplitude_reads_absent_store_example :
    (0 < (⟨1, none, 0, false, false, 0⟩ : QEngineCPU).maxQPowerOcl ∧ (1 : ℂ) ≠ 0) ∧
      RunningNormCoherent exampleConfig (⟨1, none, 0, false, false, 0⟩ : QEngineCPU).zeroAmplitudes ∧
      (⟨1, none, 0, false, false, 0⟩ : QEngineCPU).zeroAmplitudes.setAmplitude exampleConfig 0 1 = .error .nullStateVec :=
  ⟨⟨by decide, one_ne_zero⟩, setAmplitude_reads_absent_store exampleConfig ⟨1, none, 0, false, false, 0⟩ 0
    (by decide) 1 one_ne_zero⟩

end

end Qrack
