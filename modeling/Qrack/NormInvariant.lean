import Qrack.Normalization
import Qrack.ParityPhase
import Qrack.Dispatch

set_option autoImplicit false

/- The engine as a state machine over runs of calls. A run is a list of calls made one after another, each
   closure run at once (as `Dispatch` does without a worker thread). The gates rewrite the store by a map
   that keeps the norm of squares: the phase kernels turn each amplitude by a unit phase, `XMask` permutes
   the register, and `Mtrx` rewrites each target pair by a kernel product that keeps pair norms when its
   matrix is unitary and every entry the kernel selection treats as zero is zero. On an engine that does not
   normalise, every run of gates keeps the exact norm. On an engine that normalises, `Mtrx` recomputes the
   cache from the store it leaves, whatever the matrix, in the packed build. With no amplitude floor, every
   run of gates, normalisations, cache updates and resets in range keeps the running-norm cache exact and
   the store of `2 ^ qubitCount` amplitudes. -/

namespace Qrack

noncomputable section

namespace StateVector

theorem normSum_mapBelow (v : StateVector) (n : Nat) (f : Nat → ℂ → ℂ)
    (keeps : ∀ i a, Complex.normSq (f i a) = Complex.normSq a) : (v.mapBelow n f).normSum = v.normSum := by
  refine Finset.sum_congr rfl fun i _ => ?_
  simp only [mapBelow]
  split <;> simp only [keeps]

theorem normSum_write_outside (v : StateVector) (i : Nat) (outside : v.size ≤ i) (a : ℂ) :
    (v.write i a).normSum = v.normSum :=
  Finset.sum_congr rfl fun j mem => by rw [write_amp, if_neg (by have := Finset.mem_range.mp mem; omega)]

theorem normSum_mapStep (pos : Nat → Nat) (g : Nat → ℂ → ℂ) (v : StateVector) (l : Nat)
    (keeps : ∀ a, Complex.normSq (g l a) = Complex.normSq a) : (mapStep pos g v l).normSum = v.normSum := by
  unfold mapStep
  by_cases inside : pos l < v.size
  · rw [normSum_write v _ inside, keeps, sub_self, add_zero]
  · exact normSum_write_outside v _ (not_lt.mp inside) _

theorem normSum_foldl_mapStep (pos : Nat → Nat) (g : Nat → ℂ → ℂ) (L : List Nat) (v : StateVector)
    (keeps : ∀ l a, Complex.normSq (g l a) = Complex.normSq a) : (L.foldl (mapStep pos g) v).normSum = v.normSum := by
  induction L generalizing v with
  | nil => rfl
  | cons l L ih => rw [List.foldl_cons, ih, normSum_mapStep pos g v l (keeps l)]

theorem normSum_eq_sum_range (v : StateVector) :
    v.normSum = ((List.range v.size).map fun i => Complex.normSq (v.amp i)).sum := rfl

end StateVector

section TargetPairs

-- The pairs `(lcv + 0, lcv + 2 ^ q)` that `Mtrx` on qubit `q` visits, `lcv` over `par_for_mask` with the
-- target power as the one skip power.

variable {n q : Nat}

theorem add_two_pow_eq_or {l q : Nat} (clear : l.testBit q = false) : l + 2 ^ q = l ||| 2 ^ q := by
  induction q generalizing l with
  | zero =>
      have even : l % 2 = 0 := by simpa [Nat.testBit_zero] using clear
      apply Nat.eq_of_testBit_eq
      intro j
      cases j with
      | zero => simp [Nat.testBit_zero, Nat.testBit_or]; omega
      | succ j =>
          rw [Nat.testBit_add_one, Nat.testBit_or, Nat.testBit_add_one l, Nat.testBit_two_pow,
            show (l + 2 ^ 0) / 2 = l / 2 by omega]
          simp
  | succ q ih =>
      apply Nat.eq_of_testBit_eq
      intro j
      cases j with
      | zero => simp [Nat.testBit_zero, Nat.testBit_or, Nat.pow_succ]
      | succ j =>
          have half : (l + 2 ^ (q + 1)) / 2 = l / 2 + 2 ^ q := by rw [Nat.pow_succ]; omega
          rw [Nat.testBit_add_one, half, ih (by rwa [← Nat.testBit_add_one]), Nat.testBit_or, Nat.testBit_or,
            ← Nat.testBit_add_one, Nat.testBit_two_pow, Nat.testBit_two_pow]
          simp

theorem mem_targetPairs (lcv : Nat) : lcv ∈ parForMask (2 ^ n) [2 ^ q] ↔ lcv < 2 ^ n ∧ lcv.testBit q = false := by
  simp [and_two_pow_eq_zero]

theorem targetPairs_disjoint :
    ((parForMask (2 ^ n) [2 ^ q]).map (· + 0) ++ (parForMask (2 ^ n) [2 ^ q]).map (· + 2 ^ q)).Nodup := by
  refine List.nodup_append.mpr ⟨(nodup_parForMask _ _).map (add_left_injective 0),
    (nodup_parForMask _ _).map (add_left_injective _), fun i low high => ?_⟩
  obtain ⟨a, memA, rfl⟩ := List.mem_map.mp low
  obtain ⟨b, memB, same⟩ := List.mem_map.mp high
  have bitB := ((mem_targetPairs b).mp memB).2
  have flipped : (b + 2 ^ q).testBit q = true := by rw [Nat.add_comm, Nat.testBit_two_pow_add_eq, bitB]; rfl
  rw [same, Nat.add_zero, ((mem_targetPairs a).mp memA).2] at flipped
  exact Bool.false_ne_true flipped

theorem targetPairs_cover (inside : q < n) (i : Nat) :
    i ∈ List.range (2 ^ n) ↔ ∃ l ∈ parForMask (2 ^ n) [2 ^ q], l + 0 = i ∨ l + 2 ^ q = i := by
  simp only [List.mem_range, mem_targetPairs]
  constructor
  · intro below
    cases bit : i.testBit q
    · exact ⟨i, ⟨below, bit⟩, .inl rfl⟩
    · have atLeast : 2 ^ q ≤ i := Nat.testBit_implies_ge bit
      refine ⟨i - 2 ^ q, ⟨lt_of_le_of_lt (Nat.sub_le i _) below, ?_⟩, .inr (Nat.sub_add_cancel atLeast)⟩
      have flipped := Nat.testBit_two_pow_add_eq (i - 2 ^ q) q
      rw [Nat.add_sub_cancel' atLeast, bit] at flipped
      exact (Bool.not_eq_true' _).mp flipped.symm
  · rintro ⟨l, ⟨below, _⟩, same | same⟩ <;> subst same
    · exact below
    · rw [add_two_pow_eq_or ‹_›]
      exact or_two_pow_lt below inside

theorem sum_targetPairs (inside : q < n) (f : Nat → ℝ) :
    ((parForMask (2 ^ n) [2 ^ q]).map fun l => f (l + 0) + f (l + 2 ^ q)).sum = ((List.range (2 ^ n)).map f).sum :=
  sum_map_pair_eq _ _ _ _ f targetPairs_disjoint (List.nodup_range _) (targetPairs_cover inside)

theorem normSum_foldl_targetPairs (v : StateVector) (sized : v.size = 2 ^ n) (inside : q < n)
    (F : Nat → ℂ → ℂ → ℂ × ℂ) :
    ((parForMask (2 ^ n) [2 ^ q]).foldl (StateVector.pairStep (· + 0) (· + 2 ^ q) F) v).normSum =
      ((parForMask (2 ^ n) [2 ^ q]).map fun l => Complex.normSq (F l (v.amp (l + 0)) (v.amp (l + 2 ^ q))).1 +
        Complex.normSq (F l (v.amp (l + 0)) (v.amp (l + 2 ^ q))).2).sum := by
  rw [StateVector.normSum_eq_sum_range, StateVector.foldl_pairStep_size, sized, ← sum_targetPairs inside]
  refine congrArg List.sum (List.map_congr_left fun l mem => ?_)
  obtain ⟨low, high⟩ := StateVector.foldl_pairStep_pair _ _ F _ v targetPairs_disjoint l mem
  rw [low, high]

theorem normSum_foldl_targetPairs_of_pairs (v : StateVector) (sized : v.size = 2 ^ n) (inside : q < n)
    (F : Nat → ℂ → ℂ → ℂ × ℂ)
    (keeps : ∀ l y0 y1, Complex.normSq (F l y0 y1).1 + Complex.normSq (F l y0 y1).2 = Complex.normSq y0 + Complex.normSq y1) :
    ((parForMask (2 ^ n) [2 ^ q]).foldl (StateVector.pairStep (· + 0) (· + 2 ^ q) F) v).normSum = v.normSum := by
  rw [normSum_foldl_targetPairs v sized inside, StateVector.normSum_eq_sum_range, sized,
    ← sum_targetPairs inside fun i => Complex.normSq (v.amp i)]
  simp only [keeps]

end TargetPairs

section SingleQubitGate

variable (cfg : Config) (sched : Schedule)

def PairUnitary (m : Mtrx) : Prop :=
  ∀ y0 y1, Complex.normSq (kernelProduct m (kernelShape cfg m) none y0 y1).1 +
    Complex.normSq (kernelProduct m (kernelShape cfg m) none y0 y1).2 = Complex.normSq y0 + Complex.normSq y1

theorem pairUnitary_diagonal (a b : ℂ) (unitA : Complex.normSq a = 1) (unitB : Complex.normSq b = 1) :
    PairUnitary cfg ![a, 0, 0, b] := by
  have diagonal : kernelShape cfg ![a, 0, 0, b] = .diagonal := by
    simp [kernelShape, isNorm0, cfg.fpNormEpsilon_pos.le]
  intro y0 y1
  simp [diagonal, kernelProduct, Complex.normSq_mul, unitA, unitB]

theorem pairUnitary_pauliX (small : cfg.fpNormEpsilon < 1) : PairUnitary cfg pauliX := by
  have antiDiagonal : kernelShape cfg pauliX = .antiDiagonal := by
    simp [kernelShape, isNorm0, pauliX, not_le.mpr small, cfg.fpNormEpsilon_pos.le]
  intro y0 y1
  rw [antiDiagonal]
  simp [kernelProduct, pauliX, add_comm]

variable (e : QEngineCPU) (v : StateVector) (store : e.stateVec = some v) (m : Mtrx) (qubit : Nat)
  (target : qubit < e.qubitCount)

include store target in
theorem mtrx_plain (plain : e.doNormalize = false) :
    e.mtrx cfg sched m qubit = .ok { e with stateVec := some ((parForMask e.maxQPowerOcl [2 ^ qubit]).foldl
      (StateVector.pairStep (· + 0) (· + 2 ^ qubit) fun _ => kernelProduct m (kernelShape cfg m) none) v) } := by
  have inRange : ¬ 2 ^ e.qubitCount ≤ 2 ^ qubit := Nat.not_le.mpr (Nat.pow_lt_pow_right (by decide) target)
  simp [QEngineCPU.mtrx, QEngineCPU.mtrxCall, QEngineCPU.apply2x2Call, store, plain, checkQPowers, inRange,
    runClosures, apply2x2Kernel, Except.map, QEngineCPU.maxQPowerOcl]

include store target in
theorem mtrx_normalizing (normalizing : e.doNormalize = true) :
    e.mtrx cfg sched m qubit = .ok (apply2x2Kernel cfg sched 0 (2 ^ qubit) m [2 ^ qubit] true
      (decide (0 < e.runningNorm)) (if 0 < e.runningNorm then 1 / Real.sqrt e.runningNorm else 1) cfg.defaultArg
      { e with runningNorm := 1 }) := by
  have inRange : ¬ 2 ^ e.qubitCount ≤ 2 ^ qubit := Nat.not_le.mpr (Nat.pow_lt_pow_right (by decide) target)
  have either : 0 < e.runningNorm ∨ e.runningNorm ≤ 0 := lt_or_le _ _
  have recompute : (decide (0 < e.runningNorm) || decide (e.runningNorm ≤ 0)) = true := by simpa using either
  simp [QEngineCPU.mtrx, QEngineCPU.mtrxCall, QEngineCPU.apply2x2Call, store, normalizing, checkQPowers, inRange,
    runClosures, Except.map, QEngineCPU.maxQPowerOcl, either, recompute]

theorem normThresh_total (o1 o2 : Nat) (t : ℝ) (fn : ℂ → ℂ → ℂ × ℂ) (L : List Nat) (v : StateVector)
    (disjoint : (L.map (· + o1) ++ L.map (· + o2)).Nodup) :
    ∑ i ∈ Finset.range sched.numCores, (L.foldl (normThreshKernel o1 o2 sched t fn) ⟨v, fun _ => 0⟩).rngNrm i =
      (L.map fun l => Complex.normSq (floorAmp t (fn (v.amp (l + o1)) (v.amp (l + o2))).1) +
        Complex.normSq (floorAmp t (fn (v.amp (l + o1)) (v.amp (l + o2))).2)).sum := by
  rw [normThreshKernel, StateVector.foldl_accumStep_rngNrm _ _ _ _ L _ disjoint]
  simpa [add_assoc] using foldl_update_add_sum sched (fun l =>
    Complex.normSq (floorAmp t (fn (v.amp (l + o1)) (v.amp (l + o2))).1) +
      Complex.normSq (floorAmp t (fn (v.amp (l + o1)) (v.amp (l + o2))).2)) L (fun _ => 0)

theorem normThresh_targetPairs_exact {n : Nat} (v : StateVector) (sized : v.size = 2 ^ n) (inside : qubit < n)
    (t : ℝ) (fn : ℂ → ℂ → ℂ × ℂ) :
    ∑ i ∈ Finset.range sched.numCores, ((parForMask (2 ^ n) [2 ^ qubit]).foldl
        (normThreshKernel 0 (2 ^ qubit) sched t fn) ⟨v, fun _ => 0⟩).rngNrm i =
      ((parForMask (2 ^ n) [2 ^ qubit]).foldl (normThreshKernel 0 (2 ^ qubit) sched t fn) ⟨v, fun _ => 0⟩).stateVec.normSum := by
  rw [normThresh_total sched _ _ t fn _ v targetPairs_disjoint, normThreshKernel, StateVector.foldl_accumStep_stateVec,
    normSum_foldl_targetPairs v sized inside]

theorem normCalc_targetPairs_exact {n : Nat} (v : StateVector) (sized : v.size = 2 ^ n) (inside : qubit < n)
    (fn : ℂ → ℂ → ℂ × ℂ) :
    ∑ i ∈ Finset.range sched.numCores, ((parForMask (2 ^ n) [2 ^ qubit]).foldl
        (normCalcKernel .packed 0 (2 ^ qubit) sched fn) ⟨v, fun _ => 0⟩).rngNrm i =
      ((parForMask (2 ^ n) [2 ^ qubit]).foldl (normCalcKernel .packed 0 (2 ^ qubit) sched fn) ⟨v, fun _ => 0⟩).stateVec.normSum := by
  rw [normCalc_packed_total _ _ sched fn _ v targetPairs_disjoint, normCalcKernel, StateVector.foldl_accumStep_stateVec,
    normSum_foldl_targetPairs v sized inside]
  rfl

include store target in
theorem apply2x2Kernel_recomputes (sized : v.size = e.maxQPowerOcl) (doApplyNorm : Bool) (nrm nrmThresh : ℝ)
    (exact : cfg.build = .packed ∨ 0 < if nrmThresh < 0 then e.amplitudeFloor else nrmThresh) :
    (apply2x2Kernel cfg sched 0 (2 ^ qubit) m [2 ^ qubit] true doApplyNorm nrm nrmThresh e).runningNorm =
        (apply2x2Kernel cfg sched 0 (2 ^ qubit) m [2 ^ qubit] true doApplyNorm nrm nrmThresh e).normSum ∧
      ∀ w, (apply2x2Kernel cfg sched 0 (2 ^ qubit) m [2 ^ qubit] true doApplyNorm nrm nrmThresh e).stateVec = some w →
        w.size = v.size := by
  unfold apply2x2Kernel
  rw [store]
  dsimp only
  generalize (if nrmThresh < 0 then e.amplitudeFloor else nrmThresh) = t at exact ⊢
  simp only [Bool.not_true, Bool.false_eq_true, if_false]
  obtain ⟨s, total, size, chosen⟩ : ∃ s : StateVector.KernelState,
      ∑ i ∈ Finset.range sched.numCores, s.rngNrm i = s.stateVec.normSum ∧ s.stateVec.size = v.size ∧
      (if 0 < t then (parForMask e.maxQPowerOcl [2 ^ qubit]).foldl (normThreshKernel 0 (2 ^ qubit) sched t
          (kernelProduct m (kernelShape cfg m) (threshScale cfg.build (kernelShape cfg m)
            (decide (cfg.real1Epsilon < |1 - nrm|)) nrm))) ⟨v, fun _ => 0⟩
        else (parForMask e.maxQPowerOcl [2 ^ qubit]).foldl (normCalcKernel cfg.build 0 (2 ^ qubit) sched
          (kernelProduct m (kernelShape cfg m) (if decide (cfg.real1Epsilon < |1 - nrm|) = true then some nrm else none)))
          ⟨v, fun _ => 0⟩) = s := by
    split
    · exact ⟨_, normThresh_targetPairs_exact sched qubit v sized target _ _, by simp [normThreshKernel], rfl⟩
    · next notPositive =>
        rw [show cfg.build = .packed from exact.resolve_right notPositive]
        exact ⟨_, normCalc_targetPairs_exact sched qubit v sized target _, by simp [normCalcKernel], rfl⟩
  rw [chosen, total]
  cases doApplyNorm <;> split <;> simp [QEngineCPU.normSum, QEngineCPU.zeroAmplitudes, size]

theorem apply2x2Kernel_amplitudeFloor (offset1 offset2 : Nat) (qPowersSorted : List Nat) (doCalcNorm doApplyNorm : Bool)
    (nrm nrmThresh : ℝ) :
    (apply2x2Kernel cfg sched offset1 offset2 m qPowersSorted doCalcNorm doApplyNorm nrm nrmThresh e).amplitudeFloor =
      e.amplitudeFloor := by
  unfold apply2x2Kernel
  split
  · rfl
  · simp only [apply_ite QEngineCPU.amplitudeFloor, QEngineCPU.zeroAmplitudes, ite_self]

include store target in
theorem mtrx_recomputes_norm (normalizing : e.doNormalize = true) (sized : v.size = e.maxQPowerOcl)
    (exact : cfg.build = .packed ∨ 0 < e.amplitudeFloor) :
    ∃ e', e.mtrx cfg sched m qubit = .ok e' ∧ e'.runningNorm = e'.normSum ∧
      (∀ w, e'.stateVec = some w → w.size = v.size) ∧ e'.qubitCount = e.qubitCount ∧
      e'.doNormalize = e.doNormalize ∧ e'.amplitudeFloor = e.amplitudeFloor := by
  have recomputed := apply2x2Kernel_recomputes cfg sched { e with runningNorm := 1 } v store m qubit target sized
    (decide (0 < e.runningNorm)) (if 0 < e.runningNorm then 1 / Real.sqrt e.runningNorm else 1) cfg.defaultArg
    (by simpa [cfg.defaultArg_neg] using exact)
  obtain ⟨count, flag⟩ := Async.keepsShape_apply2x2Kernel cfg sched 0 (2 ^ qubit) m [2 ^ qubit] true
    (decide (0 < e.runningNorm)) (if 0 < e.runningNorm then 1 / Real.sqrt e.runningNorm else 1) cfg.defaultArg
    { e with runningNorm := 1 }
  exact ⟨_, mtrx_normalizing cfg sched e v store m qubit target normalizing, recomputed.1, recomputed.2, count, flag,
    apply2x2Kernel_amplitudeFloor cfg sched _ m _ _ _ _ _ _ _⟩

include store target in
theorem mtrx_keeps_norm (plain : e.doNormalize = false) (sized : v.size = e.maxQPowerOcl) (unitary : PairUnitary cfg m) :
    ∃ w, e.mtrx cfg sched m qubit = .ok { e with stateVec := some w } ∧ w.size = v.size ∧ w.normSum = v.normSum :=
  ⟨_, mtrx_plain cfg sched e v store m qubit target plain, by simp,
    normSum_foldl_targetPairs_of_pairs v sized target _ fun _ => unitary⟩

end SingleQubitGate

section Kernels

-- Each gate kernel rewrites the store of `2 ^ qubitCount` amplitudes by a map that keeps its size and its
-- exact norm: a unit phase per amplitude, or a permutation of the register.

def RewritesUnitarily (e e' : QEngineCPU) : Prop :=
  ∃ v w, e.stateVec = some v ∧ e' = { e with stateVec := some w } ∧ w.size = v.size ∧ w.normSum = v.normSum

@[simp] theorem normSq_parityPhase (angle : ℝ) (odd : Bool) : Complex.normSq (parityPhase angle odd) = 1 := by
  cases odd <;> simp [parityPhase, Complex.normSq_mk, ← sq, Real.cos_sq_add_sin_sq]

@[simp] theorem normSq_polar_one (θ : ℝ) : Complex.normSq (polar 1 θ) = 1 := by
  simp [polar, Complex.normSq_mk, ← sq, Real.cos_sq_add_sin_sq]

variable (e : QEngineCPU) (v : StateVector) (store : e.stateVec = some v) (mask : Nat)

include store in
theorem uniformParityRZKernel_unitary (angle : ℝ) : RewritesUnitarily e (uniformParityRZKernel mask angle e) :=
  ⟨v, v.mapBelow e.maxQPowerOcl fun lcv amp => amp * parityPhase angle (oddParity mask lcv), store,
    by rw [uniformParityRZKernel, store], rfl,
    StateVector.normSum_mapBelow v _ _ fun _ _ => by rw [Complex.normSq_mul, normSq_parityPhase, mul_one]⟩

include store in
theorem zMaskKernel_unitary : RewritesUnitarily e (zMaskKernel mask e) :=
  ⟨v, v.mapBelow e.maxQPowerOcl fun lcv amp => if oddParity mask lcv then -amp else amp, store,
    by rw [zMaskKernel, store], rfl, StateVector.normSum_mapBelow v _ _ fun _ _ => by split <;> simp⟩

include store in
theorem phaseRootNMaskKernel_unitary (nPhases : Nat) (radians : ℝ) :
    RewritesUnitarily e (phaseRootNMaskKernel mask nPhases radians e) :=
  ⟨v, v.mapBelow e.maxQPowerOcl fun lcv amp =>
      if popCountOcl (lcv &&& mask) % nPhases ≠ 0 then polar 1 (radians * ((popCountOcl (lcv &&& mask) % nPhases : Nat) : ℝ)) * amp
      else amp,
    store, by rw [phaseRootNMaskKernel, store], rfl,
    StateVector.normSum_mapBelow v _ _ fun _ _ => by split <;> simp⟩

include store in
theorem cUniformParityRZKernel_unitary (controls : List Nat) (angle : ℝ) :
    RewritesUnitarily e (cUniformParityRZKernel controls mask angle e) :=
  ⟨v, (parForMask e.maxQPowerOcl (controls.map (2 ^ ·))).foldl (StateVector.mapStep
      (controlMask (controls.map (2 ^ ·)) ||| ·) fun lcv amp => amp * parityPhase angle (oddParity mask lcv)) v,
    store, by rw [cUniformParityRZKernel, store], by simp,
    StateVector.normSum_foldl_mapStep _ _ _ v fun _ _ => by rw [Complex.normSq_mul, normSq_parityPhase, mul_one]⟩

include store in
theorem phaseParityKernel_unitary (wordBytes : Nat) (radians : ℝ) :
    RewritesUnitarily e (phaseParityKernel wordBytes mask radians e) :=
  ⟨v, (List.range e.maxQPowerOcl).foldl (StateVector.mapStep
      (fun lcv => lcv &&& mask ||| lcv &&& ((e.maxQPowerOcl - 1) ^^^ mask)) fun lcv amp =>
        parityPhase (radians / 2) (xorFold (4 * wordBytes) (lcv &&& mask) &&& 1 != 0) * amp) v,
    store, by rw [phaseParityKernel, store], by simp,
    StateVector.normSum_foldl_mapStep _ _ _ v fun _ _ => by rw [Complex.normSq_mul, normSq_parityPhase, one_mul]⟩

include store in
theorem xMaskKernel_unitary (sized : v.size = e.maxQPowerOcl) (inside : mask < e.maxQPowerOcl) (nonzero : mask ≠ 0) :
    RewritesUnitarily e (xMaskKernel mask e) := by
  refine ⟨v, _, store, xMaskKernel_eq mask e v store inside nonzero, rfl, ?_⟩
  simp only [StateVector.normSum, sized]
  refine Finset.sum_nbij' (· ^^^ mask) (· ^^^ mask) (fun i mem => ?_) (fun i mem => ?_) (fun i _ => ?_) (fun i _ => ?_)
    (fun i mem => ?_)
  · exact Finset.mem_range.mpr (Nat.xor_lt_two_pow (Finset.mem_range.mp mem) inside)
  · exact Finset.mem_range.mpr (Nat.xor_lt_two_pow (Finset.mem_range.mp mem) inside)
  · exact Nat.xor_cancel_right mask i
  · exact Nat.xor_cancel_right mask i
  · rw [if_pos (Finset.mem_range.mp mem)]

end Kernels

section GateCalls

def GateStep (e e' : QEngineCPU) : Prop :=
  e' = e ∨ RewritesUnitarily e e' ∨
    (e.doNormalize = true ∧ e'.runningNorm = e'.normSum ∧
      (∀ w, e'.stateVec = some w → ∃ v, e.stateVec = some v ∧ w.size = v.size) ∧
      e'.qubitCount = e.qubitCount ∧ e'.doNormalize = e.doNormalize ∧ e'.amplitudeFloor = e.amplitudeFloor)

variable (cfg : Config) {e e' : QEngineCPU}

namespace GateStep

theorem flags (step : GateStep e e') :
    e'.qubitCount = e.qubitCount ∧ e'.doNormalize = e.doNormalize ∧ e'.amplitudeFloor = e.amplitudeFloor := by
  rcases step with rfl | ⟨v, w, -, rfl, -⟩ | ⟨-, -, -, flags⟩
  · exact ⟨rfl, rfl, rfl⟩
  · exact ⟨rfl, rfl, rfl⟩
  · exact flags

theorem shaped (step : GateStep e e') (shaped : StoreShaped cfg e) : StoreShaped cfg e' := by
  refine ⟨step.flags.1 ▸ shaped.1, fun w store => ?_⟩
  rw [QEngineCPU.maxQPowerOcl, step.flags.1]
  rcases step with rfl | ⟨v, w', before, rfl, size, -⟩ | ⟨-, -, sizes, -⟩
  · exact shaped.2 w store
  · cases store
    exact size.trans (shaped.2 v before)
  · obtain ⟨v, before, size⟩ := sizes w store
    exact size.trans (shaped.2 v before)

theorem coherent (step : GateStep e e') (coherent : RunningNormCoherent cfg e) : RunningNormCoherent cfg e' := by
  rcases step with rfl | ⟨v, w, before, rfl, -, norm⟩ | ⟨-, exact, -⟩
  · exact coherent
  · simpa [RunningNormCoherent, QEngineCPU.normSum, before, norm] using coherent
  · exact .inr exact

theorem normSum (step : GateStep e e') (plain : e.doNormalize = false) : e'.normSum = e.normSum := by
  rcases step with rfl | ⟨v, w, before, rfl, -, norm⟩ | ⟨normalizing, -⟩
  · rfl
  · simp [QEngineCPU.normSum, before, norm]
  · exact absurd (plain ▸ normalizing) Bool.false_ne_true

end GateStep

variable (sched : Schedule)

variable (shaped : StoreShaped cfg e) (exact : e.doNormalize = true → cfg.build = .packed ∨ 0 < e.amplitudeFloor)

include shaped exact in
theorem mtrx_gateStep (m : Mtrx) (unitary : e.doNormalize = false → PairUnitary cfg m) (qubit : Nat)
    (call : e.mtrx cfg sched m qubit = .ok e') : GateStep e e' := by
  cases store : e.stateVec with
  | none =>
      simp [QEngineCPU.mtrx, QEngineCPU.mtrxCall, QEngineCPU.apply2x2Call, store, Except.map, runClosures] at call
      exact .inl call.symm
  | some v =>
      have sized := shaped.2 v store
      by_cases target : qubit < e.qubitCount
      · cases normalizing : e.doNormalize
        · obtain ⟨w, result, size, norm⟩ := mtrx_keeps_norm cfg sched e v store m qubit target normalizing sized
            (unitary normalizing)
          rw [result] at call
          cases call
          exact .inr (.inl ⟨v, w, store, rfl, size, norm⟩)
        · obtain ⟨e'', result, exactNorm, sizes, flags⟩ :=
            mtrx_recomputes_norm cfg sched e v store m qubit target normalizing sized (exact normalizing)
          rw [result] at call
          cases call
          exact .inr (.inr ⟨normalizing, exactNorm, fun w stored => ⟨v, store, sizes w stored⟩, flags⟩)
      · have outside : e.maxQPowerOcl ≤ 2 ^ qubit := Nat.pow_le_pow_right (by decide) (not_lt.mp target)
        simp [QEngineCPU.mtrx, QEngineCPU.mtrxCall, QEngineCPU.apply2x2Call, store, Except.map, outside] at call

theorem uniformParityRZ_gateStep (mask : Nat) (angle : ℝ) (call : e.uniformParityRZ mask angle = .ok e') :
    GateStep e e' := by
  unfold QEngineCPU.uniformParityRZ QEngineCPU.uniformParityRZCall at call
  split at call
  · cases call
  · split at call
    · cases call
      exact .inl rfl
    · next v store =>
        cases call
        exact .inr (.inl (uniformParityRZKernel_unitary e v store mask angle))

theorem cUniformParityRZ_gateStep (controls : List Nat) (mask : Nat) (angle : ℝ)
    (call : e.cUniformParityRZ controls mask angle = .ok e') : GateStep e e' := by
  unfold QEngineCPU.cUniformParityRZ QEngineCPU.cUniformParityRZCall at call
  split at call
  · exact uniformParityRZ_gateStep mask angle call
  · split at call
    · cases call
    · split at call
      · cases call
      · split at call
        · cases call
          exact .inl rfl
        · next v store =>
            cases call
            exact .inr (.inl (cUniformParityRZKernel_unitary e v store mask _ angle))


include shaped exact in
theorem phaseParity_gateStep (wordBytes : Nat) (radians : ℝ) (mask : Nat)
    (call : e.phaseParity cfg sched wordBytes radians mask = .ok e') : GateStep e e' := by
  unfold QEngineCPU.phaseParity QEngineCPU.phaseParityCall at call
  split at call
  · cases call
  · split at call
    · cases call
      exact .inl rfl
    · next v store =>
        split at call
        · cases call
          exact .inl rfl
        · split at call
          · exact mtrx_gateStep cfg sched shaped exact _ (fun _ => pairUnitary_diagonal cfg _ _ (by simp) (by simp)) _ call
          · cases call
            exact .inr (.inl (phaseParityKernel_unitary e v store mask wordBytes radians))

include shaped exact in
theorem phaseRootNMask_gateStep (wordBytes n mask : Nat) (call : e.phaseRootNMask cfg sched wordBytes n mask = .ok e') :
    GateStep e e' := by
  unfold QEngineCPU.phaseRootNMask QEngineCPU.phaseRootNMaskCall at call
  split at call
  · cases call
  · split at call
    · cases call
      exact .inl rfl
    · next v store =>
        split at call
        · cases call
          exact .inl rfl
        · split at call
          · cases call
            exact .inr (.inl (zMaskKernel_unitary e v store mask))
          · split at call
            · cases call
            · split at call
              · exact mtrx_gateStep cfg sched shaped exact _ (fun _ => pairUnitary_diagonal cfg _ _ (by simp) (by simp)) _ call
              · split at call
                · cases call
                · cases call
                  exact .inr (.inl (phaseRootNMaskKernel_unitary e v store mask _ _))

theorem gate_now_engine (call : QEngineCPU → Except Fault (QEngineCPU × List (QEngineCPU → QEngineCPU))) :
    ((⟨e, []⟩ : Async).gate false call).map Async.engine = (call e).map runClosures := by
  cases result : call e <;> simp [Async.gate, Async.dispatch, Async.finish, runClosures, result, Except.map]

include shaped exact in
theorem xMask_gateStep (small : cfg.fpNormEpsilon < 1) (mask : Nat)
    (call : ((⟨e, []⟩ : Async).xMask cfg sched false mask).map Async.engine = .ok e') : GateStep e e' := by
  unfold Async.xMask at call
  split at call
  · cases call
  · next inside =>
      split at call
      · cases call
        exact .inl rfl
      · next v store =>
          split at call
          · cases call
            exact .inl rfl
          · next nonzero =>
              split at call
              · rw [Async.mtrx, gate_now_engine] at call
                exact mtrx_gateStep cfg sched shaped exact _ (fun _ => pairUnitary_pauliX cfg small) _ call
              · simp only [Async.dispatch, Async.finish, runClosures, Except.map, List.foldl, Except.ok.injEq] at call
                subst call
                exact .inr (.inl (xMaskKernel_unitary e v store mask (shaped.2 v store) (not_le.mp inside) nonzero))

end GateCalls

section Resets

variable (cfg : Config) (e : QEngineCPU) (shaped : StoreShaped cfg e)

include shaped in
theorem setPermutation_exact (perm : Nat) (inside : perm < e.maxQPowerOcl) (phaseFac : Option ℂ)
    (nonzero : phaseFac ≠ some 0) (rand : ℝ) :
    StoreShaped cfg (e.setPermutation perm phaseFac rand) ∧ (e.setPermutation perm phaseFac rand).normSum = 1 ∧
      (e.setPermutation perm phaseFac rand).runningNorm = 1 := by
  have sized : e.allocatedStateVec.size = e.maxQPowerOcl := by
    cases store : e.stateVec with
    | none => simp [QEngineCPU.allocatedStateVec, store]
    | some v => simpa [QEngineCPU.allocatedStateVec, store] using shaped.2 v store
  have unit : ∀ phase : ℂ, Complex.normSq phase = 1 → (e.allocatedStateVec.clear.write perm phase).normSum = 1 := by
    intro phase norm
    rw [StateVector.normSum_write _ _ (by simpa [sized] using inside), StateVector.clear_amp, norm]
    simp [StateVector.normSum]
  refine ⟨⟨shaped.1, fun w store => ?_⟩, ?_, rfl⟩
  · simp only [QEngineCPU.setPermutation, Option.some.injEq] at store
    rw [← store, StateVector.write_size, StateVector.clear_size, sized]
    rfl
  · simp only [QEngineCPU.setPermutation, QEngineCPU.normSum]
    apply unit
    cases phaseFac with
    | none =>
        dsimp only
        split
        · simp [Complex.normSq_mk, ← sq, Real.cos_sq_add_sin_sq]
        · exact Complex.normSq_one
    | some p =>
        have positive : Complex.abs p ≠ 0 := by simpa using nonzero
        dsimp only
        rw [Complex.normSq_div, Complex.normSq_ofReal, Complex.normSq_eq_abs, sq, div_self (mul_ne_zero positive positive)]

end Resets

inductive EngineCall where
  | mtrx (m : Mtrx) (qubit : Nat)
  | xMask (mask : Nat)
  | uniformParityRZ (mask : Nat) (angle : ℝ)
  | cUniformParityRZ (controls : List Nat) (mask : Nat) (angle : ℝ)
  | phaseParity (radians : ℝ) (mask : Nat)
  | phaseRootNMask (n mask : Nat)
  | normalizeState
  | updateRunningNorm
  | setPermutation (perm : Nat) (phaseFac : Option ℂ) (rand : ℝ)

namespace EngineCall

variable (cfg : Config) (sched : Schedule) (wordBytes : Nat)

def run : EngineCall → QEngineCPU → Except Fault QEngineCPU
  | mtrx m qubit, e => e.mtrx cfg sched m qubit
  | xMask mask, e => ((⟨e, []⟩ : Async).xMask cfg sched false mask).map Async.engine
  | uniformParityRZ mask angle, e => e.uniformParityRZ mask angle
  | cUniformParityRZ controls mask angle, e => e.cUniformParityRZ controls mask angle
  | phaseParity radians mask, e => e.phaseParity cfg sched wordBytes radians mask
  | phaseRootNMask n mask, e => e.phaseRootNMask cfg sched wordBytes n mask
  | normalizeState, e => .ok (e.normalize cfg)
  | updateRunningNorm, e => .ok (e.updateRunningNorm cfg cfg.defaultArg)
  | setPermutation perm phaseFac rand, e => .ok (e.setPermutation perm phaseFac rand)

def runAll (calls : List EngineCall) (e : QEngineCPU) : Except Fault QEngineCPU :=
  calls.foldlM (fun e call => call.run cfg sched wordBytes e) e

def IsGate : EngineCall → Prop
  | normalizeState | updateRunningNorm | setPermutation .. => False
  | _ => True

def Unitary : EngineCall → Prop
  | mtrx m _ => PairUnitary cfg m
  | _ => True

def InRange (qubitCount : Nat) : EngineCall → Prop
  | setPermutation perm phaseFac _ => perm < 2 ^ qubitCount ∧ phaseFac ≠ some 0
  | _ => True

variable {e e' : QEngineCPU}

theorem gateStep_of_run (small : cfg.fpNormEpsilon < 1) (shaped : StoreShaped cfg e)
    (exact : e.doNormalize = true → cfg.build = .packed ∨ 0 < e.amplitudeFloor) (c : EngineCall) (gate : c.IsGate)
    (unitary : e.doNormalize = false → c.Unitary cfg) (call : c.run cfg sched wordBytes e = .ok e') : GateStep e e' := by
  cases c with
  | mtrx m qubit => exact mtrx_gateStep cfg sched shaped exact m unitary qubit call
  | xMask mask => exact xMask_gateStep cfg sched shaped exact small mask call
  | uniformParityRZ mask angle => exact uniformParityRZ_gateStep mask angle call
  | cUniformParityRZ controls mask angle => exact cUniformParityRZ_gateStep controls mask angle call
  | phaseParity radians mask => exact phaseParity_gateStep cfg sched shaped exact wordBytes radians mask call
  | phaseRootNMask n mask => exact phaseRootNMask_gateStep cfg sched shaped exact wordBytes n mask call
  | normalizeState | updateRunningNorm | setPermutation => exact gate.elim

/-- On an engine that does not normalise, with a store of `2 ^ qubitCount` amplitudes, every run of
gates whose single-qubit matrices keep pair norms keeps the exact norm of the store and its shape. -/
theorem runAll_gates_keep_norm (small : cfg.fpNormEpsilon < 1) (calls : List EngineCall)
    (gates : ∀ c ∈ calls, c.IsGate ∧ c.Unitary cfg) (e : QEngineCPU) (shaped : StoreShaped cfg e)
    (plain : e.doNormalize = false) (e' : QEngineCPU) (run : runAll cfg sched wordBytes calls e = .ok e') :
    e'.normSum = e.normSum ∧ StoreShaped cfg e' := by
  induction calls generalizing e with
  | nil =>
      cases run
      exact ⟨rfl, shaped⟩
  | cons c calls ih =>
      have head := gates c (List.mem_cons_self c calls)
      cases first : c.run cfg sched wordBytes e with
      | error fault =>
          rw [runAll, List.foldlM_cons, first] at run
          cases run
      | ok e1 =>
          have step := gateStep_of_run cfg sched wordBytes small shaped (fun normalizing => by simp [plain] at normalizing)
            c head.1 (fun _ => head.2) first
          obtain ⟨-, flag, -⟩ := step.flags
          have rest : runAll cfg sched wordBytes calls e1 = .ok e' := by simpa [runAll, first] using run
          obtain ⟨norm, shaped'⟩ := ih (fun c' mem => gates c' (List.mem_cons_of_mem c mem)) e1 (step.shaped cfg shaped)
            (flag.trans plain) rest
          exact ⟨norm.trans (step.normSum plain), shaped'⟩


theorem runAll_gates_keep_norm_parity :
    runAll exampleConfig oneWorker 8 [.uniformParityRZ 1 1] ⟨1, some ((StateVector.alloc 2).write 0 1), 1, false, false, 0⟩ =
        .ok (uniformParityRZKernel 1 1 ⟨1, some ((StateVector.alloc 2).write 0 1), 1, false, false, 0⟩) ∧
      (uniformParityRZKernel 1 1 ⟨1, some ((StateVector.alloc 2).write 0 1), 1, false, false, 0⟩).normSum =
        (⟨1, some ((StateVector.alloc 2).write 0 1), 1, false, false, 0⟩ : QEngineCPU).normSum ∧
      StoreShaped exampleConfig (uniformParityRZKernel 1 1 ⟨1, some ((StateVector.alloc 2).write 0 1), 1, false, false, 0⟩) :=
  have run : runAll exampleConfig oneWorker 8 [.uniformParityRZ 1 1] ⟨1, some ((StateVector.alloc 2).write 0 1), 1, false, false, 0⟩ =
      .ok (uniformParityRZKernel 1 1 ⟨1, some ((StateVector.alloc 2).write 0 1), 1, false, false, 0⟩) := rfl
  ⟨run, runAll_gates_keep_norm exampleConfig oneWorker 8 exampleConfig_small _
    (fun c mem => by simp only [List.mem_singleton] at mem; subst mem; exact ⟨trivial, trivial⟩) _
    ⟨by norm_num [exampleConfig], fun v store => by cases store; rfl⟩ rfl _ run⟩

end EngineCall

structure CacheExact (cfg : Config) (e : QEngineCPU) : Prop where
  shaped : StoreShaped cfg e
  coherent : RunningNormCoherent cfg e
  noFloor : e.amplitudeFloor ≤ 0

namespace EngineCall

variable (cfg : Config) (sched : Schedule) (wordBytes : Nat) {e e' : QEngineCPU}

theorem run_cacheExact (packed : cfg.build = .packed) (small : cfg.fpNormEpsilon < 1) (c : EngineCall)
    (inv : CacheExact cfg e) (unitary : e.doNormalize = false → c.Unitary cfg) (inRange : c.InRange e.qubitCount)
    (call : c.run cfg sched wordBytes e = .ok e') :
    CacheExact cfg e' ∧ e'.qubitCount = e.qubitCount ∧ e'.doNormalize = e.doNormalize := by
  by_cases gate : c.IsGate
  · have step := gateStep_of_run cfg sched wordBytes small inv.shaped (fun _ => .inl packed) c gate unitary call
    obtain ⟨count, flag, floor⟩ := step.flags
    exact ⟨⟨step.shaped cfg inv.shaped, step.coherent cfg inv.coherent, floor ▸ inv.noFloor⟩, count, flag⟩
  · cases c with
    | normalizeState =>
        cases call
        obtain ⟨shaped, flag⟩ := QEngineCPU.normalize_shaped cfg e inv.shaped
        exact ⟨⟨shaped, (QEngineCPU.normalize_normalizes cfg e inv.shaped inv.noFloor inv.coherent).1,
          by simpa using inv.noFloor⟩, by simp, flag⟩
    | updateRunningNorm =>
        cases call
        obtain ⟨shaped, flag⟩ := QEngineCPU.updateRunningNorm_shaped cfg cfg.defaultArg e inv.shaped
        obtain ⟨count, floor⟩ := QEngineCPU.updateRunningNorm_keeps_shape cfg cfg.defaultArg e
        exact ⟨⟨shaped, QEngineCPU.updateRunningNorm_coherent cfg e inv.shaped inv.noFloor, floor ▸ inv.noFloor⟩,
          count, flag⟩
    | setPermutation perm phaseFac rand =>
        cases call
        obtain ⟨shaped, norm, cache⟩ := setPermutation_exact cfg e inv.shaped perm inRange.1 phaseFac inRange.2 rand
        exact ⟨⟨shaped, .inr (cache.trans norm.symm), inv.noFloor⟩, rfl, rfl⟩
    | _ => exact absurd trivial gate

/-- In the packed build, on an engine with no amplitude floor, every run keeps the store of
`2 ^ qubitCount` amplitudes and a running-norm cache that is unknown or exact: its gates (with pair-unitary
matrices when the engine does not normalise), normalisations, cache updates and resets in range. -/
theorem runAll_keeps_cache_exact (packed : cfg.build = .packed) (small : cfg.fpNormEpsilon < 1)
    (calls : List EngineCall) (e : QEngineCPU) (inv : CacheExact cfg e)
    (unitary : e.doNormalize = false → ∀ c ∈ calls, c.Unitary cfg) (inRange : ∀ c ∈ calls, c.InRange e.qubitCount)
    (e' : QEngineCPU) (run : runAll cfg sched wordBytes calls e = .ok e') : CacheExact cfg e' := by
  induction calls generalizing e with
  | nil =>
      cases run
      exact inv
  | cons c calls ih =>
      cases first : c.run cfg sched wordBytes e with
      | error fault =>
          rw [runAll, List.foldlM_cons, first] at run
          cases run
      | ok e1 =>
          obtain ⟨inv1, count, flag⟩ := run_cacheExact cfg sched wordBytes packed small c inv
            (fun plain => unitary plain c (List.mem_cons_self c calls)) (inRange c (List.mem_cons_self c calls)) first
          have rest : runAll cfg sched wordBytes calls e1 = .ok e' := by simpa [runAll, first] using run
          exact ih e1 inv1 (fun plain c' mem => unitary (flag ▸ plain) c' (List.mem_cons_of_mem c mem))
            (fun c' mem => count ▸ inRange c' (List.mem_cons_of_mem c mem)) rest

theorem runAll_keeps_cache_exact_reset :
    CacheExact exampleConfig ⟨1, some ((StateVector.alloc 2).write 0 1), 1, false, false, 0⟩ ∧
      runAll exampleConfig oneWorker 8 [.setPermutation 1 none 0, .normalizeState, .updateRunningNorm]
        ⟨1, some ((StateVector.alloc 2).write 0 1), 1, false, false, 0⟩ =
        .ok ((((⟨1, some ((StateVector.alloc 2).write 0 1), 1, false, false, 0⟩ : QEngineCPU).setPermutation 1 none 0).normalize
          exampleConfig).updateRunningNorm exampleConfig exampleConfig.defaultArg) ∧
      CacheExact exampleConfig ((((⟨1, some ((StateVector.alloc 2).write 0 1), 1, false, false, 0⟩ : QEngineCPU).setPermutation
        1 none 0).normalize exampleConfig).updateRunningNorm exampleConfig exampleConfig.defaultArg) :=
  have inv : CacheExact exampleConfig ⟨1, some ((StateVector.alloc 2).write 0 1), 1, false, false, 0⟩ :=
    ⟨⟨by norm_num [exampleConfig], fun v store => by cases store; rfl⟩,
      .inr (by simp [QEngineCPU.normSum, StateVector.normSum, Finset.sum_range_succ, StateVector.write, StateVector.alloc]),
      le_refl _⟩
  have run : runAll exampleConfig oneWorker 8 [.setPermutation 1 none 0, .normalizeState, .updateRunningNorm]
      ⟨1, some ((StateVector.alloc 2).write 0 1), 1, false, false, 0⟩ =
      .ok ((((⟨1, some ((StateVector.alloc 2).write 0 1), 1, false, false, 0⟩ : QEngineCPU).setPermutation 1 none 0).normalize
        exampleConfig).updateRunningNorm exampleConfig exampleConfig.defaultArg) := rfl
  ⟨inv, run, runAll_keeps_cache_exact exampleConfig oneWorker 8 rfl exampleConfig_small _ _ inv
    (fun _ c mem => by simp only [List.mem_cons, List.mem_singleton, List.not_mem_nil, or_false] at mem
                       rcases mem with rfl | rfl | rfl <;> trivial)
    (fun c mem => by simp only [List.mem_cons, List.mem_singleton, List.not_mem_nil, or_false] at mem
                     rcases mem with rfl | rfl | rfl <;> simp [InRange]) _ run⟩

end EngineCall

end

end Qrack
