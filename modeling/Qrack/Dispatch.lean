import Qrack.Measure

set_option autoImplicit false

/- The engine behind its dispatch queue. `Dispatch`, `Finish` and `Dump` are not under src/, so they are
   modelled from the spec: one worker takes closures from a FIFO queue, `Finish()` runs the queue dry and
   `Dump()` drops it. A closure the call does not queue runs at once, after everything queued before it.
   Between two calls the worker may run the head of the queue. The calls themselves follow the source: each
   runs its caller side on the engine as the worker has left it so far, and reaches the queue only where the
   source calls `Finish()`. `XMask` is, whatever the queue does, the permutation `i ↦ i ^ mask` of the
   register, and its own inverse. -/

namespace Qrack

noncomputable section

-- An engine and the closures dispatched on it and not yet run, oldest first.
structure Async where
  engine : QEngineCPU
  queue : List (QEngineCPU → QEngineCPU)

namespace Async

/-- Modelled from the spec: `Finish()` runs every queued closure, in order. -/
def finish (a : Async) : Async := ⟨runClosures (a.engine, a.queue), []⟩

/-- Modelled from the spec: `Dump()` drops the queued closures. -/
def dump (a : Async) : Async := { a with queue := [] }

def workerStep (a : Async) : Async :=
  match a.queue with
  | [] => a
  | k :: ks => ⟨k a.engine, ks⟩

/-- Modelled from the spec: `Dispatch` queues the closures, or runs them at once after the queue. -/
def dispatch (defer : Bool) (ks : List (QEngineCPU → QEngineCPU)) (a : Async) : Async :=
  if defer then { a with queue := a.queue ++ ks } else ⟨runClosures (a.finish.engine, ks), []⟩

variable (cfg : Config) (sched : Schedule)

def gate (defer : Bool) (call : QEngineCPU → Except Fault (QEngineCPU × List (QEngineCPU → QEngineCPU)))
    (a : Async) : Except Fault Async :=
  (call a.engine).map fun r => dispatch defer r.2 ⟨r.1, a.queue⟩

def apply2x2 (defer : Bool) (offset1 offset2 : Nat) (mtrx : Mtrx) (qPowsSorted : List Nat) (doCalcNorm : Bool)
    (nrmThresh : ℝ) (a : Async) : Except Fault Async :=
  a.gate defer (QEngineCPU.apply2x2Call cfg sched offset1 offset2 mtrx qPowsSorted doCalcNorm nrmThresh)

def mtrx (defer : Bool) (m : Mtrx) (qubit : Nat) (a : Async) : Except Fault Async :=
  a.gate defer (QEngineCPU.mtrxCall cfg sched m qubit)

def setPermutation (perm : Nat) (phaseFac : Option ℂ) (rand : ℝ) (a : Async) : Async :=
  ⟨a.dump.engine.setPermutation perm phaseFac rand, []⟩

-- `XMask(mask)`. A single-bit mask is the X gate on its qubit, modelled from the spec as `Mtrx` with Pauli X.
def xMask (defer : Bool) (mask : Nat) (a : Async) : Except Fault Async :=
  if a.engine.maxQPowerOcl ≤ mask then .error (.invalidArgument "QEngineCPU::XMask mask out-of-bounds!")
  else match a.engine.stateVec with
    | none => .ok a
    | some _ =>
        if mask = 0 then .ok a
        else if isPowerOfTwo mask then a.mtrx cfg sched defer pauliX (Nat.log2 mask)
        else .ok (a.dispatch defer [xMaskKernel mask])

-- `NormalizeState()` as the caller runs it: it returns on the zero state before any `Finish()` and reads the cache
-- for Unknown before it finishes; the rest runs on the finished engine.
def normalize (a : Async) : Async :=
  match a.engine.stateVec with
  | none => a
  | some _ =>
      let unknown := decide (a.engine.runningNorm = cfg.defaultArg)
      let e := a.finish.engine
      let e := if unknown then e.updateRunningNorm cfg cfg.defaultArg else e
      ⟨e.normalizeScale cfg e.runningNorm cfg.defaultArg 0, []⟩

-- `Prob(qubit)`: normalise when the engine normalises, `Finish()`, then reduce in the build at hand. A one-qubit
-- engine returns the norm of amplitude 1 without clamping.
def prob (qubit : Nat) (a : Async) : Except Fault (ℝ × Async) :=
  if a.engine.qubitCount ≤ qubit then
    .error (.invalidArgument "QEngineCPU::Prob qubit index parameter must be within allocated qubit bounds!")
  else
    let a := (if a.engine.doNormalize then a.normalize cfg else a).finish
    match a.engine.stateVec with
    | none => .ok (0, a)
    | some v =>
        if a.engine.qubitCount = 1 then .ok (Complex.normSq (v.amp 1), a)
        else .ok (clampProb (oneChance cfg.build sched (2 ^ qubit) a.engine.maxQPowerOcl v), a)

def probParity (mask : Nat) (a : Async) : Except Fault (ℝ × Async) :=
  if a.engine.maxQPowerOcl ≤ mask then .error (.invalidArgument "QEngineCPU::ProbParity mask out-of-bounds!")
  else
    let a := (if a.engine.doNormalize then a.normalize cfg else a).finish
    match a.engine.stateVec with
    | none => .ok (0, a)
    | some v => if mask = 0 then .ok (0, a) else .ok (clampProb (parityOddChance sched mask a.engine.maxQPowerOcl v), a)

-- `ForceMParity(mask, result, doForce)`. Only the draw of an unforced result goes through `ProbParity` and its
-- `Finish()`; the loop reads and zeroes the store as it stands. A store released by that normalisation is
-- dereferenced.
def forceMParity (mask : Nat) (result doForce : Bool) (rand : ℝ) (a : Async) : Except Fault (Bool × Async) :=
  if a.engine.maxQPowerOcl ≤ mask then .error (.invalidArgument "QEngineCPU::ForceMParity mask out-of-bounds!")
  else if a.engine.stateVec.isNone ∨ mask = 0 then .ok (false, a)
  else do
    let drawn ← if doForce then pure (result, a)
      else (a.probParity cfg sched mask).map fun r => (decide (rand ≤ r.1), r.2)
    match drawn.2.engine.stateVec with
    | none => .error .nullStateVec
    | some v =>
        let loop := forceMParityLoop sched mask drawn.1 drawn.2.engine.maxQPowerOcl v
        let a : Async := ⟨{ drawn.2.engine with stateVec := some loop.1, runningNorm := loop.2 }, drawn.2.queue⟩
        .ok (drawn.1, if a.engine.doNormalize then a else a.normalize cfg)

section Queue

theorem finish_workerStep (a : Async) : a.workerStep.finish = a.finish := by
  unfold workerStep
  split <;> simp_all [finish, runClosures]

theorem finish_dispatch (defer : Bool) (ks : List (QEngineCPU → QEngineCPU)) (a : Async) :
    (a.dispatch defer ks).finish = ⟨runClosures (a.finish.engine, ks), []⟩ := by
  cases defer <;> simp [dispatch, finish, runClosures, List.foldl_append]

def KeepsShape (k : QEngineCPU → QEngineCPU) : Prop :=
  ∀ e, (k e).qubitCount = e.qubitCount ∧ (k e).doNormalize = e.doNormalize

theorem keepsShape_xMaskKernel (mask : Nat) : KeepsShape (xMaskKernel mask) := fun e => by
  unfold xMaskKernel; split <;> simp

theorem keepsShape_apply2x2Kernel (offset1 offset2 : Nat) (m : Mtrx) (qPowersSorted : List Nat)
    (doCalcNorm doApplyNorm : Bool) (nrm nrmThresh : ℝ) :
    KeepsShape (apply2x2Kernel cfg sched offset1 offset2 m qPowersSorted doCalcNorm doApplyNorm nrm nrmThresh) :=
  fun e => by
    unfold apply2x2Kernel
    split
    · exact ⟨rfl, rfl⟩
    · simp only [apply_ite QEngineCPU.qubitCount, apply_ite QEngineCPU.doNormalize, QEngineCPU.zeroAmplitudes_qubitCount,
        QEngineCPU.zeroAmplitudes_doNormalize, ite_self, and_self]

theorem keepsShape_runClosures (ks : List (QEngineCPU → QEngineCPU)) (shaped : ∀ k ∈ ks, KeepsShape k)
    (e : QEngineCPU) : (runClosures (e, ks)).qubitCount = e.qubitCount ∧
      (runClosures (e, ks)).doNormalize = e.doNormalize := by
  induction ks generalizing e with
  | nil => simp [runClosures]
  | cons k ks ih =>
      obtain ⟨count, flag⟩ := shaped k (List.mem_cons_self k ks) e
      obtain ⟨count', flag'⟩ := ih (fun k' mem => shaped k' (List.mem_cons_of_mem k mem)) (k e)
      exact ⟨count'.trans count, flag'.trans flag⟩

end Queue

section MaskGate

theorem xMask_dispatches (a : Async) (v : StateVector) (store : a.engine.stateVec = some v) (mask : Nat)
    (inside : mask < a.engine.maxQPowerOcl) (nonzero : mask ≠ 0) (spread : isPowerOfTwo mask = false) (defer : Bool) :
    a.xMask cfg sched defer mask = .ok (a.dispatch defer [xMaskKernel mask]) := by
  simp [xMask, Nat.not_le.mpr inside, store, nonzero, spread]

/-- `XMask(mask)` for a mask of two or more bits on an engine with nothing queued: once its closure has run,
each amplitude below `2^N` is the one at the index with the mask bits flipped, and a second `XMask(mask)`
restores the engine, whether either closure waits in the queue or runs at once. -/
theorem xMask_permutes_by_xor (e : QEngineCPU) (v : StateVector) (store : e.stateVec = some v) (mask : Nat)
    (inside : mask < e.maxQPowerOcl) (twoBits : ∃ a b, a < b ∧ mask.testBit a = true ∧ mask.testBit b = true)
    (defer defer' : Bool) :
    (∃ w, ((⟨e, []⟩ : Async).xMask cfg sched defer mask).map finish = .ok ⟨{ e with stateVec := some w }, []⟩ ∧
      w.size = v.size ∧ ∀ i, w.amp i = if i < e.maxQPowerOcl then v.amp (i ^^^ mask) else v.amp i) ∧
    (((⟨e, []⟩ : Async).xMask cfg sched defer mask) >>= fun a => a.xMask cfg sched defer' mask).map finish =
      .ok ⟨e, []⟩ := by
  obtain ⟨a, b, lower, bitA, bitB⟩ := twoBits
  have nonzero : mask ≠ 0 := fun zero => by simp [zero] at bitA
  have spread := isPowerOfTwo_eq_false_of_two_bits lower bitA bitB
  have once := xMaskKernel_eq mask e v store inside nonzero
  let w : StateVector := ⟨v.size, fun i => if i < e.maxQPowerOcl then v.amp (i ^^^ mask) else v.amp i⟩
  have twice : xMaskKernel mask { e with stateVec := some w } = e := by
    have back : (⟨w.size, fun i => if i < e.maxQPowerOcl then w.amp (i ^^^ mask) else w.amp i⟩ : StateVector) = v :=
      StateVector.ext rfl (funext fun i => by
        by_cases below : i < e.maxQPowerOcl
        · have flipped : i ^^^ mask < e.maxQPowerOcl := Nat.xor_lt_two_pow below inside
          simp [w, below, flipped, Nat.xor_cancel_right]
        · simp [w, below])
    rw [xMaskKernel_eq mask { e with stateVec := some w } w rfl inside nonzero]
    simp only [QEngineCPU.maxQPowerOcl] at back
    simp only [QEngineCPU.maxQPowerOcl, back, ← store]
  refine ⟨⟨w, ?_, rfl, fun i => rfl⟩, ?_⟩
  · rw [xMask_dispatches cfg sched ⟨e, []⟩ v store mask inside nonzero spread defer]
    simp only [Except.map, finish_dispatch]
    simp [finish, runClosures, once, w]
  · rw [xMask_dispatches cfg sched ⟨e, []⟩ v store mask inside nonzero spread defer]
    cases defer
    · have first : (⟨e, []⟩ : Async).dispatch false [xMaskKernel mask] = ⟨{ e with stateVec := some w }, []⟩ := by
        simp [dispatch, finish, runClosures, once, w]
      rw [first]
      show ((⟨{ e with stateVec := some w }, []⟩ : Async).xMask cfg sched defer' mask).map finish = _
      rw [xMask_dispatches cfg sched _ w rfl mask inside nonzero spread defer']
      simp only [Except.map, finish_dispatch]
      simp [finish, runClosures, twice]
    · show ((⟨e, [xMaskKernel mask]⟩ : Async).xMask cfg sched defer' mask).map finish = _
      rw [xMask_dispatches cfg sched _ v store mask inside nonzero spread defer']
      simp only [Except.map, finish_dispatch]
      simp only [finish, runClosures, List.foldl_cons, List.foldl_nil]
      rw [once, twice]

theorem xMask_permutes_by_xor_three :
    let e : QEngineCPU := ⟨2, some ((StateVector.alloc 4).write 0 1), 1, false, false, 0⟩
    let v := (StateVector.alloc 4).write 0 1
    (e.stateVec = some v ∧ 3 < e.maxQPowerOcl ∧ ∃ a b, a < b ∧ Nat.testBit 3 a = true ∧ Nat.testBit 3 b = true) ∧
    (∃ w, ((⟨e, []⟩ : Async).xMask exampleConfig oneWorker true 3).map finish = .ok ⟨{ e with stateVec := some w }, []⟩ ∧
      w.size = v.size ∧ ∀ i, w.amp i = if i < e.maxQPowerOcl then v.amp (i ^^^ 3) else v.amp i) ∧
    (((⟨e, []⟩ : Async).xMask exampleConfig oneWorker true 3) >>= fun a => a.xMask exampleConfig oneWorker false 3).map
      finish = .ok ⟨e, []⟩ :=
  ⟨⟨rfl, by decide, 0, 1, by decide, by decide, by decide⟩, xMask_permutes_by_xor exampleConfig oneWorker
    ⟨2, some ((StateVector.alloc 4).write 0 1), 1, false, false, 0⟩ _ rfl 3 (by decide) ⟨0, 1, by decide, by decide, by decide⟩
    true false⟩

end MaskGate

theorem forceMParity_forced (a : Async) (v : StateVector) (store : a.engine.stateVec = some v) (mask : Nat)
    (inside : mask < a.engine.maxQPowerOcl) (nonzero : mask ≠ 0) (normalizing : a.engine.doNormalize = true)
    (result : Bool) (rand : ℝ) :
    a.forceMParity cfg sched mask result true rand =
      .ok (result, ⟨{ a.engine with
                      stateVec := some (forceMParityLoop sched mask result a.engine.maxQPowerOcl v).1
                      runningNorm := (forceMParityLoop sched mask result a.engine.maxQPowerOcl v).2 }, a.queue⟩) := by
  simp [forceMParity, store, Nat.not_le.mpr inside, nonzero, normalizing]

theorem xMaskKernel_three (e : QEngineCPU) (two : e.qubitCount = 2) (v : StateVector) (store : e.stateVec = some v)
    (ground : ∀ i, v.amp i = if i = 0 then 1 else 0) :
    ∃ w, (xMaskKernel 3 e).stateVec = some w ∧ w.amp 1 = 0 ∧ w.amp 3 = 1 := by
  have four : e.maxQPowerOcl = 4 := by simp [QEngineCPU.maxQPowerOcl, two]
  rw [xMaskKernel_eq 3 e v store (by rw [four]; decide) (by decide), four]
  exact ⟨_, rfl, by simp [ground, show (1 : Nat) ^^^ 3 = 2 by decide], by simp [ground]⟩

theorem keep_odd_range_four : (List.range 4).filter (fun lcv => oddParity 1 lcv == true) = [1, 3] := by decide

/-- On two qubits reset to `|00⟩`, `XMask(0b11)` then a forced `ForceMParity(1, true)` then `Prob(0)`:
with the mask's closure still queued the loop reads `|00⟩` and `Prob(0)` returns 0; in the
synchronous run it reads `|11⟩` and `Prob(0)` returns 1. -/
theorem forceMParity_skips_finish (e : QEngineCPU) (small : cfg.fpNormEpsilon < 1) :
    let start : Async := ⟨{ e with qubitCount := 2, stateVec := none, doNormalize := true, randGlobalPhase := false }, []⟩
    let run (defer : Bool) : Except Fault ℝ := do
      let a ← (start.setPermutation 0 none 0).xMask cfg sched defer 3
      let r ← a.forceMParity cfg sched 1 true true 0
      let p ← r.2.prob cfg sched 0
      pure p.1
    run true = .ok 0 ∧ run false = .ok 1 := by
  intro start run
  let E1 : QEngineCPU :=
    { e with qubitCount := 2, stateVec := some ((StateVector.alloc 4).clear.write 0 1), runningNorm := 1,
             doNormalize := true, randGlobalPhase := false }
  have reset : start.setPermutation 0 none 0 = ⟨E1, []⟩ := rfl
  have queued (defer : Bool) : (⟨E1, []⟩ : Async).xMask cfg sched defer 3 =
      .ok ((⟨E1, []⟩ : Async).dispatch defer [xMaskKernel 3]) := by
    have odd : isPowerOfTwo 3 = false := by decide
    simp [xMask, QEngineCPU.maxQPowerOcl, E1, odd]
  have eps := cfg.fpNormEpsilon_pos
  have unknown := cfg.defaultArg_neg
  constructor
  · -- the closure waits: the loop zeroes |00⟩, and Prob's normalisation releases the store
    have loop := forceMParityLoop_spec sched 1 true 4 ((StateVector.alloc 4).clear.write 0 1)
    have forced := forceMParity_forced cfg sched ⟨E1, [xMaskKernel 3]⟩ _ rfl 1 (show 1 < 2 ^ 2 by decide)
      (by decide) rfl true 0
    have zero : (forceMParityLoop sched 1 true 4 ((StateVector.alloc 4).clear.write 0 1)).2 = 0 := by
      rw [loop.2, keep_odd_range_four]
      simp
    simp only [run, reset, queued, dispatch, if_true, bind, Except.bind, List.nil_append, forced]
    simp [prob, normalize, finish, runClosures, QEngineCPU.normalizeScale, E1, QEngineCPU.maxQPowerOcl, zero, eps.le,
      unknown.ne']
    rfl
  · -- the closure runs at once: the loop keeps |11⟩, and Prob(0) reads 1
    obtain ⟨w, store, amp1, amp3⟩ := xMaskKernel_three (E1) rfl _ rfl fun i => by simp [eq_comm]
    obtain ⟨count, flag⟩ := keepsShape_xMaskKernel 3 E1
    have four : (xMaskKernel 3 E1).maxQPowerOcl = 4 := by simp [QEngineCPU.maxQPowerOcl, count, E1]
    have loop := forceMParityLoop_spec sched 1 true 4 w
    have one : (forceMParityLoop sched 1 true 4 w).2 = 1 := by
      rw [loop.2, keep_odd_range_four]
      simp [amp1, amp3]
    have kept1 : (forceMParityLoop sched 1 true 4 w).1.amp 1 = 0 := by
      rw [loop.1]; simpa [show oddParity 1 1 = true by decide] using amp1
    have kept3 : (forceMParityLoop sched 1 true 4 w).1.amp 3 = 1 := by
      rw [loop.1]; simpa [show oddParity 1 3 = true by decide] using amp3
    have forced := forceMParity_forced cfg sched ⟨xMaskKernel 3 E1, []⟩ w store 1 (by simp [four])
      (by decide) flag true 0
    have odd : (List.range (2 ^ 2)).filter (fun i => i.testBit 0) = [1, 3] := by decide
    have reads : oneChance cfg.build sched 1 4 (forceMParityLoop sched 1 true 4 w).1 =
        ([1, 3].map fun i => Complex.normSq ((forceMParityLoop sched 1 true 4 w).1.amp i)).sum := by
      rw [← odd]
      exact oneChance_eq_sum sched cfg.build _ 2 0 le_rfl two_pos
    have known : (1 : ℝ) ≠ cfg.defaultArg := by intro same; linarith
    simp only [run, reset, queued, dispatch, Bool.false_eq_true, if_false, finish, runClosures, List.foldl_cons,
      List.foldl_nil, bind, Except.bind, forced]
    simp [finish, runClosures, four, prob, normalize, QEngineCPU.normalizeScale, one, count, E1, flag, known,
      not_le.mpr small, eps.le, reads, odd, kept1, kept3, clampProb, QEngineCPU.maxQPowerOcl]
    rfl

theorem forceMParity_skips_finish_example :
    exampleConfig.fpNormEpsilon < 1 ∧
      let start : Async := ⟨{ (⟨0, none, 0, false, false, 0⟩ : QEngineCPU) with
                              qubitCount := 2, stateVec := none, doNormalize := true, randGlobalPhase := false }, []⟩
      let run (defer : Bool) : Except Fault ℝ := do
        let a ← (start.setPermutation 0 none 0).xMask exampleConfig oneWorker defer 3
        let r ← a.forceMParity exampleConfig oneWorker 1 true true 0
        let p ← r.2.prob exampleConfig oneWorker 0
        pure p.1
      run true = .ok 0 ∧ run false = .ok 1 :=
  have small : exampleConfig.fpNormEpsilon < 1 := exampleConfig_small
  ⟨small, forceMParity_skips_finish exampleConfig oneWorker ⟨0, none, 0, false, false, 0⟩ small⟩

end Async

end

end Qrack
