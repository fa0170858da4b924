import Qrack.Apply2x2

set_option autoImplicit false

namespace Qrack

noncomputable section

/-- Modelled from the spec: `ThrowIfQbIdArrayIsBad(controls, qubitCount, message)` rejects a control
past the register and a repeated control. -/
def qbIdArrayIsBad (controls : List Nat) (qubitCount : Nat) : Bool :=
  controls.any (qubitCount ≤ ·) || !decide controls.Nodup

-- The pending normalisation `UniformlyControlledSingleBit` folds into its kernel: `1/√runningNorm`, applied only
-- when `doNormalize` holds and `ONE_R1 - nrm > FP_NORM_EPSILON`.
def ucsbScale (cfg : Config) (e : QEngineCPU) : Option ℝ :=
  let nrm := if 0 < e.runningNorm then 1 / Real.sqrt e.runningNorm else 1
  if e.doNormalize ∧ cfg.fpNormEpsilon < 1 - nrm then some nrm else none

def ucsbPair (mtrxs : Nat → ℂ) (qPowers skipPowers : List Nat) (skipValueMask : Nat) (scale : Option ℝ)
    (lcv : Nat) (y0 y1 : ℂ) : ℂ × ℂ :=
  let offset := (depositSkips skipPowers (packControls qPowers lcv) ||| skipValueMask) * 4
  let q := (mtrxs offset * y0 + mtrxs (1 + offset) * y1, mtrxs (2 + offset) * y0 + mtrxs (3 + offset) * y1)
  match scale with
  | none => q
  | some nrm => ((nrm : ℂ) * q.1, (nrm : ℂ) * q.2)

def QEngineCPU.uniformlyControlledSingleBit (cfg : Config) (sched : Schedule) (controls : List Nat)
    (qubitIndex : Nat) (mtrxs : Nat → ℂ) (mtrxSkipPowers : List Nat) (mtrxSkipValueMask : Nat)
    (e : QEngineCPU) : Except Fault QEngineCPU :=
  match e.stateVec with
  | none => .ok e
  | some v =>
      if controls = [] then e.mtrx cfg sched (fun k => mtrxs (mtrxSkipValueMask * 4 + k)) qubitIndex
      else if e.qubitCount ≤ qubitIndex then
        .error (.invalidArgument "QEngineCPU::UniformlyControlledSingleBit qubitIndex is out-of-bounds!")
      else if qbIdArrayIsBad controls e.qubitCount then
        .error (.invalidArgument "QEngineCPU::UniformlyControlledSingleBit control is out-of-bounds!")
      else
        let targetPower := 2 ^ qubitIndex
        let fn := ucsbPair mtrxs (controls.map (2 ^ ·)) mtrxSkipPowers mtrxSkipValueMask (ucsbScale cfg e)
        .ok { e with
          stateVec := some ((parForSkip e.maxQPowerOcl targetPower 1).foldl
            (StateVector.pairStep (fun l => l) (· ||| targetPower) fn) v)
          runningNorm := if e.doNormalize then 1 else e.runningNorm }

section Spec

variable (cfg : Config) (sched : Schedule) (controls : List Nat) (qubitIndex : Nat) (mtrxs : Nat → ℂ)
  (skipPowers : List Nat) (skipValueMask : Nat)

def ucsbLoop (e : QEngineCPU) (v : StateVector) : StateVector :=
  (parForSkip e.maxQPowerOcl (2 ^ qubitIndex) 1).foldl
    (StateVector.pairStep (fun l => l) (· ||| 2 ^ qubitIndex)
      (ucsbPair mtrxs (controls.map (2 ^ ·)) skipPowers skipValueMask (ucsbScale cfg e))) v

theorem uniformlyControlledSingleBit_eq (e : QEngineCPU) (v : StateVector) (store : e.stateVec = some v)
    (nonempty : controls ≠ []) (target : qubitIndex < e.qubitCount)
    (valid : qbIdArrayIsBad controls e.qubitCount = false) :
    e.uniformlyControlledSingleBit cfg sched controls qubitIndex mtrxs skipPowers skipValueMask =
      .ok { e with stateVec := some (ucsbLoop cfg controls qubitIndex mtrxs skipPowers skipValueMask e v),
                   runningNorm := if e.doNormalize then 1 else e.runningNorm } := by
  simp [QEngineCPU.uniformlyControlledSingleBit, store, nonempty, Nat.not_le.mpr target, valid, ucsbLoop]

theorem ucsbLoop_pair (e : QEngineCPU) (v : StateVector) (lcv : Nat) (bound : lcv < e.maxQPowerOcl)
    (clear : lcv.testBit qubitIndex = false) :
    (ucsbLoop cfg controls qubitIndex mtrxs skipPowers skipValueMask e v).amp lcv =
      (ucsbPair mtrxs (controls.map (2 ^ ·)) skipPowers skipValueMask (ucsbScale cfg e) lcv
        (v.amp lcv) (v.amp (lcv ||| 2 ^ qubitIndex))).1 ∧
    (ucsbLoop cfg controls qubitIndex mtrxs skipPowers skipValueMask e v).amp (lcv ||| 2 ^ qubitIndex) =
      (ucsbPair mtrxs (controls.map (2 ^ ·)) skipPowers skipValueMask (ucsbScale cfg e) lcv
        (v.amp lcv) (v.amp (lcv ||| 2 ^ qubitIndex))).2 :=
  StateVector.foldl_pairStep_pair _ _ _ _ v (targetPairs_nodup _) lcv
    ((mem_parForSkip_bit _ _ _).mpr ⟨bound, clear⟩)

theorem ucsbLoop_frame (e : QEngineCPU) (v : StateVector) (i : Nat) (target : qubitIndex < e.qubitCount)
    (outside : e.maxQPowerOcl ≤ i) :
    (ucsbLoop cfg controls qubitIndex mtrxs skipPowers skipValueMask e v).amp i = v.amp i := by
  apply StateVector.foldl_pairStep_frame
  simp only [List.map_id', List.mem_append, List.mem_map, mem_parForSkip_bit, not_or, not_exists, not_and]
  exact ⟨fun below => absurd below (Nat.not_lt.mpr outside),
    fun l inside same => absurd (same ▸ or_two_pow_lt inside.1 target) (Nat.not_lt.mpr outside)⟩

@[simp] theorem ucsbLoop_size (e : QEngineCPU) (v : StateVector) :
    (ucsbLoop cfg controls qubitIndex mtrxs skipPowers skipValueMask e v).size = v.size :=
  StateVector.foldl_pairStep_size _ _ _ _ v

end Spec

end

end Qrack
