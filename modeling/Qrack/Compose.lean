import Qrack.Engine

set_option autoImplicit false

namespace Qrack

def composeSplit (N M start lcv : Nat) : Nat × Nat :=
  let startMask := 2 ^ start - 1
  let midMask := (2 ^ M - 1) <<< start
  let endMask := andNot (2 ^ (N + M) - 1) (startMask ||| midMask)
  ((lcv &&& startMask) ||| ((lcv &&& endMask) >>> M), (lcv &&& midMask) >>> start)

theorem testBit_composeSplit_snd {N M start lcv : Nat} (j : Nat) :
    (composeSplit N M start lcv).2.testBit j = (decide (j < M) && lcv.testBit (start + j)) := by
  simp only [composeSplit, Nat.testBit_shiftRight, Nat.testBit_and, Nat.testBit_shiftLeft, Nat.testBit_two_pow_sub_one]
  rw [decide_eq_true (Nat.le_add_right start j), Nat.add_sub_cancel_left, Bool.true_and, Bool.and_comm]

theorem testBit_composeSplit_fst {N M start lcv : Nat} (j : Nat) :
    (composeSplit N M start lcv).1.testBit j =
      if j < start then lcv.testBit j else (decide (j < N) && lcv.testBit (M + j)) := by
  simp only [composeSplit, Nat.testBit_or, Nat.testBit_and, Nat.testBit_shiftRight, testBit_andNot,
    Nat.testBit_two_pow_sub_one, Nat.testBit_shiftLeft]
  by_cases low : j < start
  · have covered : (decide (M + j < start) || decide (M + j ≥ start) && decide (M + j - start < M)) = true := by
      simp only [Bool.or_eq_true, Bool.and_eq_true, decide_eq_true_eq]
      omega
    rw [if_pos low, covered, decide_eq_true low]
    simp only [Bool.and_true, Bool.not_true, Bool.and_false, Bool.or_false]
  · have outside : (decide (M + j < start) || decide (M + j ≥ start) && decide (M + j - start < M)) = false := by
      simp only [Bool.or_eq_false_iff, Bool.and_eq_false_iff, decide_eq_false_iff_not]
      omega
    rw [if_neg low, outside, decide_eq_false low,
      show decide (M + j < N + M) = decide (j < N) from decide_eq_decide.mpr (by omega)]
    simp only [Bool.not_false, Bool.and_true, Bool.false_and, Bool.false_or, Bool.true_and, Bool.and_comm]

noncomputable section

namespace QEngineCPU

variable (cfg : Config)

def capacityMessage : String :=
  "Cannot instantiate a QEngineCPU with greater capacity than environment variable QRACK_MAX_CPU_QB."

-- `Compose(toCopy)`: append a copy of `toCopy` after the last qubit. Returns the first new index, this engine and
-- `toCopy`, which the call may normalise.
def compose (e toCopy : QEngineCPU) : Except Fault (Nat × QEngineCPU × QEngineCPU) :=
  let result := e.qubitCount
  if toCopy.qubitCount = 0 then .ok (result, e, toCopy)
  else
    let nQubitCount := e.qubitCount + toCopy.qubitCount
    if cfg.maxCpuQb < nQubitCount then .error (.invalidArgument capacityMessage)
    else if e.qubitCount = 0 then
      .ok (0, { e with
        qubitCount := toCopy.qubitCount
        runningNorm := toCopy.runningNorm
        stateVec := match toCopy.stateVec with
          | some w => some ⟨toCopy.maxQPowerOcl, w.amp⟩
          | none => e.stateVec }, toCopy)
    else if e.stateVec.isNone ∨ toCopy.stateVec.isNone then
      .ok (result, { e.zeroAmplitudes with qubitCount := nQubitCount }, toCopy)
    else
      let startMask := e.maxQPowerOcl - 1
      let endMask := (toCopy.maxQPowerOcl - 1) <<< e.qubitCount
      let e := if e.doNormalize then e.normalize cfg else e
      let toCopy := if toCopy.doNormalize ∧ toCopy.runningNorm ≠ 1 then toCopy.normalize cfg else toCopy
      match e.stateVec, toCopy.stateVec with
      | some v, some w =>
          .ok (result, { e with
            qubitCount := nQubitCount
            stateVec := some (StateVector.generate (2 ^ nQubitCount) fun lcv =>
              v.amp (lcv &&& startMask) * w.amp ((lcv &&& endMask) >>> e.qubitCount)) }, toCopy)
      | _, _ => .error .nullStateVec

def composeAt (e toCopy : QEngineCPU) (start : Nat) : Except Fault (Nat × QEngineCPU × QEngineCPU) :=
  if e.qubitCount < start then .error (.invalidArgument "QEngineCPU::Compose start index is out-of-bounds!")
  else if e.qubitCount = 0 then (compose cfg e toCopy).map fun r => (0, r.2)
  else if toCopy.qubitCount = 0 then .ok (e.qubitCount, e, toCopy)
  else
    let nQubitCount := e.qubitCount + toCopy.qubitCount
    if cfg.maxCpuQb < nQubitCount then .error (.invalidArgument capacityMessage)
    else if e.stateVec.isNone ∨ toCopy.stateVec.isNone then
      .ok (start, { e.zeroAmplitudes with qubitCount := nQubitCount }, toCopy)
    else
      let split := composeSplit e.qubitCount toCopy.qubitCount start
      let e := if e.doNormalize then e.normalize cfg else e
      let toCopy := if toCopy.doNormalize then toCopy.normalize cfg else toCopy
      match e.stateVec, toCopy.stateVec with
      | some v, some w =>
          .ok (start, { e with
            qubitCount := nQubitCount
            stateVec := some (StateVector.generate (2 ^ nQubitCount) fun lcv => v.amp (split lcv).1 * w.amp (split lcv).2) },
            toCopy)
      | _, _ => .error .nullStateVec

theorem composeAt_eq_product (a b : QEngineCPU) (va vb : StateVector) (start : Nat)
    (storeA : a.stateVec = some va) (storeB : b.stateVec = some vb)
    (qubitsA : 0 < a.qubitCount) (qubitsB : 0 < b.qubitCount) (inside : start ≤ a.qubitCount)
    (room : a.qubitCount + b.qubitCount ≤ cfg.maxCpuQb) (va' vb' : StateVector)
    (keptA : (if a.doNormalize then a.normalize cfg else a).stateVec = some va')
    (keptB : (if b.doNormalize then b.normalize cfg else b).stateVec = some vb') :
    a.composeAt cfg b start = .ok (start, { (if a.doNormalize then a.normalize cfg else a) with
      qubitCount := a.qubitCount + b.qubitCount
      stateVec := some (StateVector.generate (2 ^ (a.qubitCount + b.qubitCount)) fun lcv =>
        va'.amp (composeSplit a.qubitCount b.qubitCount start lcv).1 *
          vb'.amp (composeSplit a.qubitCount b.qubitCount start lcv).2) },
      if b.doNormalize then b.normalize cfg else b) := by
  simp only [composeAt, Nat.not_lt.mpr inside, qubitsA.ne', qubitsB.ne', Nat.not_lt.mpr room, storeA, storeB,
    Option.isNone_some, Bool.false_eq_true, or_self, if_false, keptA, keptB]

-- `Compose(std::vector toCopy)`: append every engine of the list in turn. Returns the offset each one was mapped
-- to (the map keyed by engine pointer, here in list order), this engine and the engines of the list after their
-- normalisation. The stores are read without a null check.
def composeAll (e : QEngineCPU) (toCopy : List QEngineCPU) : Except Fault (List Nat × QEngineCPU × List QEngineCPU) :=
  let startMask := e.maxQPowerOcl - 1
  let e := if e.doNormalize then e.normalize cfg else e
  let srcs := toCopy.map fun src => if src.doNormalize then src.normalize cfg else src
  let layout := srcs.foldl (fun (acc : List Nat × Nat) src => (acc.1 ++ [acc.2], acc.2 + src.qubitCount))
    ([], e.qubitCount)
  let offsets := layout.1
  let nQubitCount := layout.2
  match e.stateVec, (srcs.mapM stateVec) with
  | some v, some ws =>
      .ok (offsets, { e with
        qubitCount := nQubitCount
        stateVec := some (StateVector.generate (2 ^ nQubitCount) fun lcv =>
          ((ws.zip (srcs.zip offsets)).foldl (fun amp (w, src, offset) =>
            amp * w.amp ((lcv &&& ((src.maxQPowerOcl - 1) <<< offset)) >>> offset)) (v.amp (lcv &&& startMask)))) },
        srcs)
  | _, _ => .error .nullStateVec

end QEngineCPU

end

end Qrack
