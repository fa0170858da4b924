import Qrack.Engine

set_option autoImplicit false

namespace Qrack

abbrev Mtrx := Fin 4 → ℂ

-- The worker `par_for_mask` hands each index to, out of `GetConcurrencyLevel()` workers. The split is made by
-- header code and left free; each worker visits its indices in increasing order.
structure Schedule where
  numCores : Nat
  cpu : Nat → Nat
  cpu_lt : ∀ lcv, cpu lcv < numCores

inductive KernelShape where
  | diagonal
  | antiDiagonal
  | generic
deriving DecidableEq, Repr

noncomputable section

/-- Modelled from the spec: `IS_NORM_0(c)`, a norm at most `FP_NORM_EPSILON`. -/
def isNorm0 (cfg : Config) (c : ℂ) : Bool := decide (Complex.normSq c ≤ cfg.fpNormEpsilon)

def kernelShape (cfg : Config) (m : Mtrx) : KernelShape :=
  if isNorm0 cfg (m 1) && isNorm0 cfg (m 2) then .diagonal
  else if isNorm0 cfg (m 0) && isNorm0 cfg (m 3) then .antiDiagonal
  else .generic

def kernelProduct (m : Mtrx) (shape : KernelShape) (scale : Option ℝ) (y0 y1 : ℂ) : ℂ × ℂ :=
  let q : ℂ × ℂ := match shape with
    | .diagonal => (m 0 * y0, m 3 * y1)
    | .antiDiagonal => (m 1 * y1, m 2 * y0)
    | .generic => (m 0 * y0 + m 1 * y1, m 2 * y0 + m 3 * y1)
  match scale with
  | none => q
  | some nrm => ((nrm : ℂ) * q.1, (nrm : ℂ) * q.2)

def floorAmp (normThresh : ℝ) (a : ℂ) : ℂ := if Complex.normSq a < normThresh then 0 else a

def normThreshKernel (o1 o2 : Nat) (sched : Schedule) (normThresh : ℝ) (fn : ℂ → ℂ → ℂ × ℂ) :
    StateVector.KernelState → Nat → StateVector.KernelState :=
  StateVector.accumStep (· + o1) (· + o2)
    (fun _ y0 y1 => (floorAmp normThresh (fn y0 y1).1, floorAmp normThresh (fn y0 y1).2))
    (fun lcv y0 y1 r => Function.update r (sched.cpu lcv) (r (sched.cpu lcv) +
      Complex.normSq (floorAmp normThresh (fn y0 y1).1) + Complex.normSq (floorAmp normThresh (fn y0 y1).2)))

-- `NORM_CALC_KERNEL`: the packed build adds the pair norm to the worker's slot (`+=`), the scalar build assigns it
-- (`rngNrm[cpu] = ...`).
def normCalcKernel (build : Build) (o1 o2 : Nat) (sched : Schedule) (fn : ℂ → ℂ → ℂ × ℂ) :
    StateVector.KernelState → Nat → StateVector.KernelState :=
  StateVector.accumStep (· + o1) (· + o2) (fun _ => fn)
    (fun lcv y0 y1 r => Function.update r (sched.cpu lcv) (match build with
      | .packed => r (sched.cpu lcv) + (Complex.normSq (fn y0 y1).1 + Complex.normSq (fn y0 y1).2)
      | .scalar => Complex.normSq (fn y0 y1).1 + Complex.normSq (fn y0 y1).2))

-- The scale each threshold kernel applies. Inside the branch `|1 - nrm| ≤ REAL1_EPSILON` the scalar build applies
-- none, while the packed build still scales its anti-diagonal kernel by `nrm`.
def threshScale (build : Build) (shape : KernelShape) (scaled : Bool) (nrm : ℝ) : Option ℝ :=
  if scaled then some nrm
  else match build, shape with
    | .packed, .antiDiagonal => some nrm
    | _, _ => none

-- The body of the closure `Apply2x2` dispatches: kernel selection, the masked loop, and the reduction of the
-- accumulators into `runningNorm`.
def apply2x2Kernel (cfg : Config) (sched : Schedule) (offset1 offset2 : Nat) (mtrx : Mtrx)
    (qPowersSorted : List Nat) (doCalcNorm doApplyNorm : Bool) (nrm nrmThresh : ℝ)
    (e : QEngineCPU) : QEngineCPU :=
  match e.stateVec with
  | none => e -- a released store: the source closure dereferences the null stateVec here
  | some v =>
      let normThresh := if nrmThresh < 0 then e.amplitudeFloor else nrmThresh
      let shape := kernelShape cfg mtrx
      let scaled := decide (cfg.real1Epsilon < |1 - nrm|)
      let lcvs := parForMask e.maxQPowerOcl qPowersSorted
      let s : StateVector.KernelState := ⟨v, fun _ => 0⟩
      let s := if !doCalcNorm then
          ⟨lcvs.foldl (StateVector.pairStep (· + offset1) (· + offset2)
            (fun _ => kernelProduct mtrx shape none)) v, s.rngNrm⟩
        else if 0 < normThresh then
          lcvs.foldl (normThreshKernel offset1 offset2 sched normThresh
            (kernelProduct mtrx shape (threshScale cfg.build shape scaled nrm))) s
        else
          lcvs.foldl (normCalcKernel cfg.build offset1 offset2 sched
            (kernelProduct mtrx shape (if scaled then some nrm else none))) s
      let e := { e with stateVec := some s.stateVec }
      let e := if doApplyNorm then { e with runningNorm := 1 } else e
      if !doCalcNorm then e
      else
        let rNrm := ∑ i ∈ Finset.range sched.numCores, s.rngNrm i
        if rNrm ≤ cfg.fpNormEpsilon then e.zeroAmplitudes else { e with runningNorm := rNrm }

-- The argument checks of `Apply2x2` on `qPowsSorted`, in the order the loop makes them. The duplicate message is
-- spelled differently in the two builds.
def checkQPowers (build : Build) (maxQPowerOcl : Nat) : List Nat → Option Nat → Option String
  | [], _ => none
  | p :: ps, prev =>
      if maxQPowerOcl ≤ p then
        some "QEngineCPU::Apply2x2 parameter qPowsSorted array values must be within allocated qubit bounds!"
      else if prev = some p then
        some (match build with
          | .packed => "QEngineCPU::Apply2x2 parameter qPowSorted array values cannot be duplicated (for control and target qubits)!"
          | .scalar => "QEngineCPU::Apply2x2 parameter qPowsSorted array values cannot be duplicated (for control and target qubits)!")
      else checkQPowers build maxQPowerOcl ps (some p)

def runClosures (r : QEngineCPU × List (QEngineCPU → QEngineCPU)) : QEngineCPU :=
  r.2.foldl (fun e k => k e) r.1

def QEngineCPU.apply2x2Call (cfg : Config) (sched : Schedule) (offset1 offset2 : Nat) (mtrx : Mtrx)
    (qPowsSorted : List Nat) (doCalcNorm : Bool) (nrmThresh : ℝ) (e : QEngineCPU) :
    Except Fault (QEngineCPU × List (QEngineCPU → QEngineCPU)) :=
  match e.stateVec with
  | none => .ok (e, [])
  | some _ =>
      if e.maxQPowerOcl ≤ offset1 ∨ e.maxQPowerOcl ≤ offset2 then
        .error (.invalidArgument
          "QEngineCPU::Apply2x2 offset1 and offset2 parameters must be within allocated qubit bounds!")
      else match checkQPowers cfg.build e.maxQPowerOcl qPowsSorted none with
        | some message => .error (.invalidArgument message)
        | none =>
            let doApplyNorm := e.doNormalize && qPowsSorted.length == 1 && decide (0 < e.runningNorm)
            let doCalcNorm := doCalcNorm && (doApplyNorm || decide (e.runningNorm ≤ 0))
            let nrm := if doApplyNorm then 1 / Real.sqrt e.runningNorm else 1
            let e := if doCalcNorm then { e with runningNorm := 1 } else e
            .ok (e, [apply2x2Kernel cfg sched offset1 offset2 mtrx qPowsSorted doCalcNorm doApplyNorm nrm nrmThresh])

def QEngineCPU.apply2x2 (cfg : Config) (sched : Schedule) (offset1 offset2 : Nat) (mtrx : Mtrx)
    (qPowsSorted : List Nat) (doCalcNorm : Bool) (nrmThresh : ℝ) (e : QEngineCPU) : Except Fault QEngineCPU :=
  (e.apply2x2Call cfg sched offset1 offset2 mtrx qPowsSorted doCalcNorm nrmThresh).map runClosures

/-- Modelled from the spec: the single-qubit gate `Mtrx(m, qubit)` is `Apply2x2` on the pair
`(0, 2 ^ qubit)` holding that qubit, with the norm recomputed when the engine normalises. -/
def QEngineCPU.mtrxCall (cfg : Config) (sched : Schedule) (m : Mtrx) (qubit : Nat) (e : QEngineCPU) :
    Except Fault (QEngineCPU × List (QEngineCPU → QEngineCPU)) :=
  e.apply2x2Call cfg sched 0 (2 ^ qubit) m [2 ^ qubit] e.doNormalize cfg.defaultArg

def QEngineCPU.mtrx (cfg : Config) (sched : Schedule) (m : Mtrx) (qubit : Nat) (e : QEngineCPU) :
    Except Fault QEngineCPU :=
  (e.mtrxCall cfg sched m qubit).map runClosures

end

end Qrack
