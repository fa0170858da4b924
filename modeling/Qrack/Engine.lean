import Qrack.StateVector

set_option autoImplicit false

namespace Qrack

inductive Build where
  | packed
  | scalar
deriving DecidableEq, Repr

-- The build and the constants the engine reads from headers outside the sources: `FP_NORM_EPSILON`,
-- `REAL1_EPSILON`, the running-norm sentinel `REAL1_DEFAULT_ARG` and `QRACK_MAX_CPU_QB`. Only their signs are
-- known, and the structure keeps them.
structure Config where
  build : Build
  fpNormEpsilon : ℝ
  real1Epsilon : ℝ
  defaultArg : ℝ
  maxCpuQb : Nat
  fpNormEpsilon_pos : 0 < fpNormEpsilon
  real1Epsilon_pos : 0 < real1Epsilon
  defaultArg_neg : defaultArg < 0

-- How a call fails: `std::invalid_argument` with its message, a dereference of the absent store, which the code
-- does not guard against, or a shift by the word width or more, which C++ leaves undefined.
inductive Fault where
  | invalidArgument (message : String)
  | nullStateVec
  | undefinedShift
deriving DecidableEq, Repr

-- A `QEngineCPU`: the qubit count, the optional amplitude store, the running-norm cache (a real, equal to
-- `REAL1_DEFAULT_ARG` when unknown) and the flags the kernels read. `maxQPowerOcl` is derived, since
-- `SetQubitCount` is the only writer of `qubitCount` and sets it to `2 ^ qubitCount`.
structure QEngineCPU where
  qubitCount : Nat
  stateVec : Option StateVector
  runningNorm : ℝ
  doNormalize : Bool
  randGlobalPhase : Bool
  amplitudeFloor : ℝ

noncomputable section

def polar (rho theta : ℝ) : ℂ := ⟨rho * Real.cos theta, rho * Real.sin theta⟩

@[simp] theorem polar_zero (rho : ℝ) : polar rho 0 = rho := Complex.ext (by simp [polar]) (by simp [polar])

def exampleConfig : Config := ⟨.packed, 1 / 2 ^ 20, 1 / 2 ^ 20, -999, 32, by norm_num, by norm_num, by norm_num⟩

theorem exampleConfig_small : exampleConfig.fpNormEpsilon < 1 := by norm_num [exampleConfig]

/-- Modelled from the spec: `clampProb` cuts a probability to [0, 1]. -/
def clampProb (p : ℝ) : ℝ := max 0 (min 1 p)

/-- Modelled from the spec: `isBadPermRange(start, length, maxQPower)`, a range past the end. -/
def isBadPermRange (start length maxQPower : Nat) : Bool := maxQPower < start + length

/-- Modelled from the spec: `par_norm(n, stateVec, thresh)` sums the norms of the first `n`
amplitudes, discarding the ones below `thresh`. -/
def parNorm (n : Nat) (v : StateVector) (thresh : ℝ) : ℝ :=
  ∑ i ∈ Finset.range n, if Complex.normSq (v.amp i) < thresh then 0 else Complex.normSq (v.amp i)

namespace QEngineCPU

variable (cfg : Config)

def maxQPowerOcl (e : QEngineCPU) : Nat := 2 ^ e.qubitCount

def setQubitCount (n : Nat) (e : QEngineCPU) : QEngineCPU := { e with qubitCount := n }

def zeroAmplitudes (e : QEngineCPU) : QEngineCPU := { e with stateVec := none, runningNorm := 0 }

-- The store, or a fresh cleared one of `maxQPowerOcl` amplitudes where the code allocates.
def allocatedStateVec (e : QEngineCPU) : StateVector := e.stateVec.getD (StateVector.alloc e.maxQPowerOcl)

def amplitude (e : QEngineCPU) (i : Nat) : ℂ := match e.stateVec with
  | none => 0
  | some v => v.amp i

def normSum (e : QEngineCPU) : ℝ := match e.stateVec with
  | none => 0
  | some v => v.normSum

def setPermutation (perm : Nat) (phaseFac : Option ℂ) (rand : ℝ) (e : QEngineCPU) : QEngineCPU :=
  let phase : ℂ := match phaseFac with
    | none => if e.randGlobalPhase then ⟨Real.cos (rand * 2 * Real.pi), Real.sin (rand * 2 * Real.pi)⟩ else 1
    | some p => p / (Complex.abs p : ℂ)
  { e with stateVec := some (e.allocatedStateVec.clear.write perm phase), runningNorm := 1 }

/-- `SetPermutation` has no argument check: for a permutation past `2 ^ N` it raises nothing and
writes its phase past the end of the store it allocates. -/
theorem setPermutation_writes_past_store (e : QEngineCPU) (k : Nat) (rand : ℝ) :
    ∃ v, (QEngineCPU.setPermutation (2 ^ e.qubitCount + k) none rand
        { e with stateVec := none, randGlobalPhase := false }).stateVec = some v ∧
      v.size = 2 ^ e.qubitCount ∧ v.amp (2 ^ e.qubitCount + k) = 1 :=
  ⟨_, rfl, rfl, by simp [QEngineCPU.allocatedStateVec]⟩

def setQuantumState (inputState : Nat → ℂ) (e : QEngineCPU) : QEngineCPU :=
  { e with stateVec := some (e.allocatedStateVec.copyIn inputState), runningNorm := cfg.defaultArg }

def setAmplitude (perm : Nat) (amp : ℂ) (e : QEngineCPU) : Except Fault QEngineCPU :=
  if e.maxQPowerOcl ≤ perm then .error (.invalidArgument "QEngineCPU::SetAmplitude argument out-of-bounds!")
  else if e.stateVec.isNone ∧ Complex.normSq amp = 0 then .ok e
  else do
    let runningNorm ← if e.runningNorm ≠ cfg.defaultArg then
        match e.stateVec with
        | none => Except.error Fault.nullStateVec
        | some v => pure (e.runningNorm + (Complex.normSq amp - Complex.normSq (v.read perm)))
      else pure e.runningNorm
    pure { e with runningNorm, stateVec := some (e.allocatedStateVec.write perm amp) }

def setAmplitudePage (page : Nat → ℂ) (offset length : Nat) (e : QEngineCPU) : Except Fault QEngineCPU :=
  if isBadPermRange offset length e.maxQPowerOcl then
    .error (.invalidArgument "QEngineCPU::SetAmplitudePage range is out-of-bounds!")
  else .ok { e with stateVec := some (e.allocatedStateVec.copyInPage page 0 offset length),
                    runningNorm := if e.doNormalize then cfg.defaultArg else e.runningNorm }

-- The second overload, copying a page of another engine. A page of an engine with no store is read as zeros
-- (`copy_in` of a null vector fills the range with zeros).
def setAmplitudePageFrom (e pageEngine : QEngineCPU) (srcOffset dstOffset length : Nat) :
    Except Fault QEngineCPU :=
  if isBadPermRange dstOffset length e.maxQPowerOcl then
    .error (.invalidArgument "QEngineCPU::SetAmplitudePage source range is out-of-bounds!")
  else if isBadPermRange srcOffset length pageEngine.maxQPowerOcl then
    .error (.invalidArgument "QEngineCPU::SetAmplitudePage source range is out-of-bounds!")
  else if e.stateVec.isNone ∧ pageEngine.stateVec.isNone then .ok e
  else if pageEngine.stateVec.isNone ∧ length = e.maxQPowerOcl then .ok e.zeroAmplitudes
  else .ok { e with stateVec := some (e.allocatedStateVec.copyInPage pageEngine.amplitude srcOffset dstOffset length),
                    runningNorm := cfg.defaultArg }

def shuffleBuffers (e o : QEngineCPU) : Except Fault (QEngineCPU × QEngineCPU) :=
  if e.qubitCount ≠ o.qubitCount then
    .error (.invalidArgument "QEngineCPU::ShuffleBuffers argument size differs from this!")
  else if e.stateVec.isNone ∧ o.stateVec.isNone then .ok (e, o)
  else
    let shuffled := e.allocatedStateVec.shuffle (o.stateVec.getD (StateVector.alloc e.maxQPowerOcl))
    .ok ({ e with stateVec := some shuffled.1, runningNorm := cfg.defaultArg },
         { o with stateVec := some shuffled.2, runningNorm := cfg.defaultArg })

def updateRunningNorm (normThresh : ℝ) (e : QEngineCPU) : QEngineCPU :=
  match e.stateVec with
  | none => { e with runningNorm := 0 }
  | some v =>
      let r := parNorm e.maxQPowerOcl v (if normThresh < 0 then e.amplitudeFloor else normThresh)
      if r ≤ cfg.fpNormEpsilon then e.zeroAmplitudes else { e with runningNorm := r }

def normalizeScale (nrm normThreshF phaseArg : ℝ) (e : QEngineCPU) : QEngineCPU :=
  if nrm ≤ cfg.fpNormEpsilon then e.zeroAmplitudes
  else if |1 - nrm| ≤ cfg.fpNormEpsilon ∧ phaseArg * phaseArg ≤ cfg.fpNormEpsilon then e
  else
    let thresh := if normThreshF < 0 then e.amplitudeFloor else normThreshF
    let cNrm := polar (1 / Real.sqrt nrm) phaseArg
    { e with
      stateVec := e.stateVec.map fun v => v.mapBelow e.maxQPowerOcl fun _ amp =>
        if 0 < thresh ∧ Complex.normSq amp < thresh then 0 else cNrm * amp
      runningNorm := 1 }

-- `NormalizeState(nrm_f, norm_thresh_f, phaseArg)`; callers without arguments pass `REAL1_DEFAULT_ARG` twice and a
-- zero phase.
def normalizeState (nrmF normThreshF phaseArg : ℝ) (e : QEngineCPU) : QEngineCPU :=
  match e.stateVec with
  | none => e
  | some _ =>
      let e := if e.runningNorm = cfg.defaultArg ∧ nrmF = cfg.defaultArg then
        updateRunningNorm cfg cfg.defaultArg e else e
      normalizeScale cfg (if nrmF < 0 then e.runningNorm else nrmF) normThreshF phaseArg e

-- `NormalizeState()` with its default arguments.
def normalize (e : QEngineCPU) : QEngineCPU := normalizeState cfg cfg.defaultArg cfg.defaultArg 0 e

def getQuantumState (e : QEngineCPU) : Except Fault ((Nat → ℂ) × QEngineCPU) :=
  match e.stateVec with
  | none => .ok (fun _ => 0, e)
  | some _ =>
      let e := if e.doNormalize then normalize cfg e else e
      match e.stateVec with
      | none => .error .nullStateVec
      | some v => .ok (v.amp, e)

def copyStateVec (e src : QEngineCPU) : Except Fault (QEngineCPU × QEngineCPU) :=
  if e.qubitCount ≠ src.qubitCount then
    .error (.invalidArgument "QEngineCPU::CopyStateVec argument size differs from this!")
  else if src.stateVec.isNone then .ok (e.zeroAmplitudes, src)
  else do
    let (out, src) ← getQuantumState cfg src
    pure ({ e with stateVec := some (e.allocatedStateVec.copyIn out), runningNorm := src.runningNorm }, src)

theorem normalizeScale_amplitude (nrm normThreshF phaseArg : ℝ) (e : QEngineCPU) (i : Nat) :
    (normalizeScale cfg nrm normThreshF phaseArg e).amplitude i =
      if nrm ≤ cfg.fpNormEpsilon then 0
      else if |1 - nrm| ≤ cfg.fpNormEpsilon ∧ phaseArg * phaseArg ≤ cfg.fpNormEpsilon then e.amplitude i
      else if i < e.maxQPowerOcl then
        let thresh := if normThreshF < 0 then e.amplitudeFloor else normThreshF
        if 0 < thresh ∧ Complex.normSq (e.amplitude i) < thresh then 0
        else polar (1 / Real.sqrt nrm) phaseArg * e.amplitude i
      else e.amplitude i := by
  unfold normalizeScale
  by_cases low : nrm ≤ cfg.fpNormEpsilon
  · simp [low, zeroAmplitudes, amplitude]
  · by_cases near : |1 - nrm| ≤ cfg.fpNormEpsilon ∧ phaseArg * phaseArg ≤ cfg.fpNormEpsilon
    · rw [if_neg low, if_pos near, if_neg low, if_pos near]
    · rw [if_neg low, if_neg near, if_neg low, if_neg near]
      unfold amplitude
      cases e.stateVec <;> simp [StateVector.mapBelow, maxQPowerOcl]

theorem normalizeScale_keeps_zero (nrm normThreshF phaseArg : ℝ) (e : QEngineCPU) (i : Nat)
    (zero : ∀ v, e.stateVec = some v → v.amp i = 0) :
    ∀ w, (normalizeScale cfg nrm normThreshF phaseArg e).stateVec = some w → w.amp i = 0 := by
  intro w after
  unfold normalizeScale at after
  by_cases low : nrm ≤ cfg.fpNormEpsilon
  · simp [low, zeroAmplitudes] at after
  · by_cases near : |1 - nrm| ≤ cfg.fpNormEpsilon ∧ phaseArg * phaseArg ≤ cfg.fpNormEpsilon
    · rw [if_neg low, if_pos near] at after
      exact zero w after
    · rw [if_neg low, if_neg near] at after
      obtain ⟨v, store, rfl⟩ := Option.map_eq_some'.mp after
      simp [StateVector.mapBelow, zero v store]

theorem updateRunningNorm_stateVec (normThresh : ℝ) (e : QEngineCPU) :
    (updateRunningNorm cfg normThresh e).stateVec = e.stateVec ∨ (updateRunningNorm cfg normThresh e).stateVec = none := by
  unfold updateRunningNorm
  split
  · exact .inl rfl
  · generalize parNorm _ _ _ = r
    by_cases low : r ≤ cfg.fpNormEpsilon <;> simp [low, zeroAmplitudes]

theorem normalize_keeps_zero (e : QEngineCPU) (i : Nat) (zero : ∀ v, e.stateVec = some v → v.amp i = 0) :
    ∀ w, (normalize cfg e).stateVec = some w → w.amp i = 0 := by
  unfold normalize normalizeState
  split
  · exact zero
  · apply normalizeScale_keeps_zero
    split_ifs
    · rcases updateRunningNorm_stateVec cfg cfg.defaultArg e with same | gone
      · exact same ▸ zero
      · simp [gone]
    · exact zero

theorem normalizeScale_keeps_shape (nrm normThreshF phaseArg : ℝ) (e : QEngineCPU) :
    (normalizeScale cfg nrm normThreshF phaseArg e).qubitCount = e.qubitCount ∧
      (normalizeScale cfg nrm normThreshF phaseArg e).amplitudeFloor = e.amplitudeFloor := by
  unfold normalizeScale
  split_ifs <;> exact ⟨rfl, rfl⟩

theorem updateRunningNorm_keeps_shape (normThresh : ℝ) (e : QEngineCPU) :
    (updateRunningNorm cfg normThresh e).qubitCount = e.qubitCount ∧
      (updateRunningNorm cfg normThresh e).amplitudeFloor = e.amplitudeFloor := by
  unfold updateRunningNorm
  split
  · exact ⟨rfl, rfl⟩
  · generalize parNorm _ _ _ = r
    dsimp only
    split_ifs <;> exact ⟨rfl, rfl⟩

theorem normalize_keeps_shape (e : QEngineCPU) :
    (normalize cfg e).qubitCount = e.qubitCount ∧ (normalize cfg e).amplitudeFloor = e.amplitudeFloor := by
  unfold normalize normalizeState
  split
  · exact ⟨rfl, rfl⟩
  · rw [(normalizeScale_keeps_shape cfg _ _ _ _).1, (normalizeScale_keeps_shape cfg _ _ _ _).2]
    split_ifs
    · exact updateRunningNorm_keeps_shape cfg _ e
    · exact ⟨rfl, rfl⟩

@[simp] theorem normalize_qubitCount (e : QEngineCPU) : (normalize cfg e).qubitCount = e.qubitCount :=
  (normalize_keeps_shape cfg e).1

@[simp] theorem normalize_amplitudeFloor (e : QEngineCPU) : (normalize cfg e).amplitudeFloor = e.amplitudeFloor :=
  (normalize_keeps_shape cfg e).2

theorem normalize_of_runningNorm_one (small : cfg.fpNormEpsilon < 1) (e : QEngineCPU) (one : e.runningNorm = 1) :
    normalize cfg e = e := by
  have known : (1 : ℝ) ≠ cfg.defaultArg := by linarith [cfg.defaultArg_neg]
  have eps := cfg.fpNormEpsilon_pos
  unfold normalize normalizeState normalizeScale
  split
  · rfl
  · simp [known, cfg.defaultArg_neg, one, not_le.mpr small, eps.le]

@[simp] theorem zeroAmplitudes_stateVec (e : QEngineCPU) : e.zeroAmplitudes.stateVec = none := rfl
@[simp] theorem zeroAmplitudes_runningNorm (e : QEngineCPU) : e.zeroAmplitudes.runningNorm = 0 := rfl
@[simp] theorem zeroAmplitudes_qubitCount (e : QEngineCPU) : e.zeroAmplitudes.qubitCount = e.qubitCount := rfl
@[simp] theorem zeroAmplitudes_doNormalize (e : QEngineCPU) : e.zeroAmplitudes.doNormalize = e.doNormalize := rfl
@[simp] theorem setQubitCount_qubitCount (n : Nat) (e : QEngineCPU) : (e.setQubitCount n).qubitCount = n := rfl
@[simp] theorem setQubitCount_stateVec (n : Nat) (e : QEngineCPU) : (e.setQubitCount n).stateVec = e.stateVec := rfl
@[simp] theorem setQubitCount_runningNorm (n : Nat) (e : QEngineCPU) :
    (e.setQubitCount n).runningNorm = e.runningNorm := rfl

end QEngineCPU

end

end Qrack
