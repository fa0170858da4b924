import Qrack.Dispatch

set_option autoImplicit false

/- The probability queries of one permutation and of a register, the sampling of `MAll`, and the forced
   parity measurement. Each query normalises when the engine normalises and calls `Finish()` before it reads
   the store. `MAll` walks the permutations in order, adds up the probabilities above `REAL1_EPSILON`, and
   collapses onto the first permutation whose running total passes the draw; past the end it falls back to
   the last permutation it counted, which starts as the last permutation of the register. `ForceMParity`
   zeroes the other parity and caches the kept norm; an engine that does not normalise then runs
   `NormalizeState()` on that cache, which leaves a norm within `FP_NORM_EPSILON` of 1 unscaled. -/

namespace Qrack

noncomputable section

def maskSkipPowers (v : Nat) : List Nat :=
  if nonzero : v = 0 then []
  else (((v &&& (v - 1)) ^^^ v) &&& v) :: maskSkipPowers (v &&& (v - 1))
termination_by v
decreasing_by exact lt_of_le_of_lt Nat.and_le_right (by omega)

theorem and_lowBit_split (lcv v : Nat) :
    (lcv &&& (((v &&& (v - 1)) ^^^ v) &&& v) == 0 && lcv &&& (v &&& (v - 1)) == 0) = (lcv &&& v == 0) := by
  have bits : ∀ x : Nat, x = 0 ↔ ∀ j, x.testBit j = false :=
    fun x => ⟨fun zero j => zero ▸ Nat.zero_testBit j, Nat.zero_of_testBit_eq_false⟩
  rw [Bool.eq_iff_iff]
  simp only [Bool.and_eq_true, beq_iff_eq, bits, Nat.testBit_and, Nat.testBit_xor, ← forall_and]
  refine forall_congr' fun j => ?_
  cases lcv.testBit j <;> cases v.testBit j <;> cases (v - 1).testBit j <;> simp

theorem all_maskSkipPowers (mask lcv : Nat) :
    ((maskSkipPowers mask).all fun p => lcv &&& p == 0) = (lcv &&& mask == 0) := by
  induction mask using maskSkipPowers.induct with
  | case1 => simp [maskSkipPowers]
  | case2 v nonzero ih => rw [maskSkipPowers, dif_neg nonzero, List.all_cons, ih, and_lowBit_split]

def probRegChance (sched : Schedule) (start length perm maxQPowerOcl : Nat) (v : StateVector) : ℝ :=
  ∑ i ∈ Finset.range sched.numCores, (parForSkip maxQPowerOcl (2 ^ start) length).foldl
    (fun r lcv => Function.update r (sched.cpu lcv) (r (sched.cpu lcv) + Complex.normSq (v.amp (lcv ||| perm <<< start))))
    (fun _ => (0 : ℝ)) i

def probMaskChance (sched : Schedule) (mask perm maxQPowerOcl : Nat) (v : StateVector) : ℝ :=
  ∑ i ∈ Finset.range sched.numCores, (parForMask maxQPowerOcl (maskSkipPowers mask)).foldl
    (fun r lcv => Function.update r (sched.cpu lcv) (r (sched.cpu lcv) + Complex.normSq (v.amp (lcv ||| perm))))
    (fun _ => (0 : ℝ)) i

section RegisterFields

variable {i start length perm : Nat}

theorem testBit_field_mask (j : Nat) :
    ((2 ^ length - 1) * 2 ^ start).testBit j = (decide (start ≤ j) && decide (j - start < length)) := by
  rw [← Nat.shiftLeft_eq, Nat.testBit_shiftLeft, Nat.testBit_two_pow_sub_one]

theorem and_field_mask (i : Nat) :
    i &&& ((2 ^ length - 1) * 2 ^ start) = ((i >>> start) % 2 ^ length) <<< start := by
  apply Nat.eq_of_testBit_eq
  intro j
  rw [Nat.testBit_and, testBit_field_mask, Nat.testBit_shiftLeft, Nat.testBit_mod_two_pow, Nat.testBit_shiftRight]
  by_cases above : start ≤ j
  · simp [above, Nat.add_sub_cancel' above, Bool.and_comm]
  · simp [above]

theorem shiftLeft_and_field_mask (small : perm < 2 ^ length) :
    perm <<< start &&& ((2 ^ length - 1) * 2 ^ start) = perm <<< start := by
  rw [and_field_mask, Nat.shiftLeft_shiftRight, Nat.mod_eq_of_lt small]

theorem field_mask_lt {N : Nat} (fits : start + length ≤ N) : (2 ^ length - 1) * 2 ^ start < 2 ^ N :=
  Nat.lt_pow_two_of_testBit _ fun j above => by
    rw [testBit_field_mask]
    simp only [Bool.and_eq_false_iff, decide_eq_false_iff_not]
    omega

theorem field_mask_beq :
    (i &&& ((2 ^ length - 1) * 2 ^ start) == perm <<< start) = ((i >>> start) % 2 ^ length == perm) := by
  rw [and_field_mask, Bool.eq_iff_iff, beq_iff_eq, beq_iff_eq, Nat.shiftLeft_eq, Nat.shiftLeft_eq,
    Nat.mul_left_inj (Nat.two_pow_pos start).ne']

end RegisterFields

section QuerySums

variable (sched : Schedule) (v : StateVector)

theorem probRegChance_eq_sum (N start length perm : Nat) (fits : start + length ≤ N) (small : perm < 2 ^ length) :
    probRegChance sched start length perm (2 ^ N) v =
      (((List.range (2 ^ N)).filter fun i => (i >>> start) % 2 ^ length == perm).map
        fun i => Complex.normSq (v.amp i)).sum := by
  rw [probRegChance, foldl_update_add_sum, Finset.sum_const_zero, zero_add, parForSkip,
    sum_filter_or_eq N _ (perm <<< start) (fun i => Complex.normSq (v.amp i)) (field_mask_lt fits)
      (shiftLeft_and_field_mask small)]
  simp only [field_mask_beq]

theorem probMaskChance_eq_sum (N mask perm : Nat) (inside : mask < 2 ^ N) (sub : perm &&& mask = perm) :
    probMaskChance sched mask perm (2 ^ N) v =
      (((List.range (2 ^ N)).filter fun i => i &&& mask == perm).map fun i => Complex.normSq (v.amp i)).sum := by
  rw [probMaskChance, foldl_update_add_sum, Finset.sum_const_zero, zero_add, parForMask]
  simp only [all_maskSkipPowers]
  exact sum_filter_or_eq N mask perm (fun i => Complex.normSq (v.amp i)) inside sub

end QuerySums

namespace Async

variable (cfg : Config) (sched : Schedule)

/-- Modelled from the spec: `ProbAll(perm)`, the clamped norm of the amplitude of one permutation, read
after the normalisation and the `Finish()` that the probability queries make. -/
def probAll (perm : Nat) (a : Async) : ℝ × Async :=
  let a := (if a.engine.doNormalize then a.normalize cfg else a).finish
  (clampProb (Complex.normSq (a.engine.amplitude perm)), a)

def mAllScan (rnd : ℝ) : List Nat → Nat → ℝ → Async → Nat × Async
  | [], lastNonzero, _, a => (lastNonzero, a)
  | perm :: rest, lastNonzero, totProb, a =>
      let part := probAll cfg perm a
      if cfg.real1Epsilon < part.1 then
        let totProb := totProb + part.1
        if rnd < totProb ∨ 1 - totProb ≤ cfg.fpNormEpsilon then (perm, part.2)
        else mAllScan rnd rest perm totProb part.2
      else mAllScan rnd rest lastNonzero totProb part.2

-- `MAll()`: draw `rnd`, scan every permutation from `lastNonzero = maxQPower - 1`, then `SetPermutation` the
-- outcome (which draws `rand` for its phase).
def mAll (rnd rand : ℝ) (a : Async) : Nat × Async :=
  let r := mAllScan cfg rnd (List.range a.engine.maxQPowerOcl) (a.engine.maxQPowerOcl - 1) 0 a
  (r.1, r.2.setPermutation r.1 none rand)

theorem probAll_plain (e : QEngineCPU) (plain : e.doNormalize = false) (perm : Nat) :
    probAll cfg perm ⟨e, []⟩ = (clampProb (Complex.normSq (e.amplitude perm)), ⟨e, []⟩) := by
  simp [probAll, plain, finish, runClosures]

theorem mAllScan_quiet (rnd : ℝ) (e : QEngineCPU) (plain : e.doNormalize = false) (L : List Nat)
    (quiet : ∀ perm ∈ L, clampProb (Complex.normSq (e.amplitude perm)) ≤ cfg.real1Epsilon) (lastNonzero : Nat)
    (totProb : ℝ) :
    mAllScan cfg rnd L lastNonzero totProb ⟨e, []⟩ = (lastNonzero, ⟨e, []⟩) := by
  induction L with
  | nil => rfl
  | cons perm rest ih =>
      rw [mAllScan, probAll_plain cfg e plain, if_neg (not_lt.mpr (quiet perm (List.mem_cons_self _ _)))]
      exact ih fun p mem => quiet p (List.mem_cons_of_mem _ mem)

theorem clampProb_le {p ε : ℝ} (nonneg : 0 ≤ p) (small : p ≤ ε) : clampProb p ≤ ε :=
  max_le (nonneg.trans small) ((min_le_right 1 p).trans small)

/-- A state of `N` qubits spread evenly over every permutation but the last: each probability is
`1 / (2^N - 1)`. Once that is at most `REAL1_EPSILON`, `MAll` counts no permutation, falls back to the
last one, whose amplitude is 0, and collapses onto it. -/
theorem mAll_collapses_onto_zero_amplitude (e : QEngineCPU) (N : Nat) (rnd rand : ℝ)
    (wide : 1 ≤ ((2 ^ N - 1 : Nat) : ℝ) * cfg.real1Epsilon) :
    let spread : QEngineCPU :=
      { e with
        qubitCount := N
        doNormalize := false
        stateVec := some ⟨2 ^ N, fun i => if i < 2 ^ N - 1 then ((1 / Real.sqrt (2 ^ N - 1 : Nat) : ℝ) : ℂ) else 0⟩ }
    spread.normSum = 1 ∧ (mAll cfg rnd rand ⟨spread, []⟩).1 = 2 ^ N - 1 ∧ spread.amplitude (2 ^ N - 1) = 0 := by
  intro spread
  have eps := cfg.real1Epsilon_pos
  have count : (0 : ℝ) < (2 ^ N - 1 : Nat) := by
    by_contra empty
    rw [not_lt.mp empty |>.antisymm (Nat.cast_nonneg _), zero_mul] at wide
    exact absurd wide (by norm_num)
  have share : Complex.normSq ((1 / Real.sqrt (2 ^ N - 1 : Nat) : ℝ) : ℂ) = 1 / (2 ^ N - 1 : Nat) := by
    rw [Complex.normSq_ofReal, div_mul_div_comm, one_mul, Real.mul_self_sqrt count.le]
  have small : 1 / ((2 ^ N - 1 : Nat) : ℝ) ≤ cfg.real1Epsilon := by
    rw [div_le_iff₀ count]
    linarith
  have size : 2 ^ N = (2 ^ N - 1) + 1 := (Nat.sub_add_cancel Nat.one_le_two_pow).symm
  refine ⟨?_, ?_, by simp [spread, QEngineCPU.amplitude]⟩
  · simp only [spread, QEngineCPU.normSum, StateVector.normSum]
    rw [size, Nat.add_sub_cancel, Finset.sum_range_succ, if_neg (lt_irrefl _), Complex.normSq_zero, add_zero,
      Finset.sum_congr rfl fun i mem => by rw [if_pos (Finset.mem_range.mp mem)], Finset.sum_const,
      Finset.card_range, nsmul_eq_mul, share, mul_one_div_cancel count.ne']
  · have quiet : ∀ perm ∈ List.range spread.maxQPowerOcl,
        clampProb (Complex.normSq (spread.amplitude perm)) ≤ cfg.real1Epsilon := fun perm _ => by
      simp only [spread, QEngineCPU.amplitude]
      split
      · exact clampProb_le (share ▸ by positivity) (share ▸ small)
      · exact clampProb_le (Complex.normSq_nonneg _) (by rw [Complex.normSq_zero]; exact eps.le)
    simp only [mAll, mAllScan_quiet cfg rnd spread rfl _ quiet]
    rfl

theorem mAll_collapses_onto_zero_amplitude_example :
    1 ≤ ((2 ^ 21 - 1 : Nat) : ℝ) * exampleConfig.real1Epsilon ∧
    let spread : QEngineCPU :=
      { (⟨0, none, 0, false, false, 0⟩ : QEngineCPU) with
        qubitCount := 21
        doNormalize := false
        stateVec := some ⟨2 ^ 21, fun i => if i < 2 ^ 21 - 1 then ((1 / Real.sqrt (2 ^ 21 - 1 : Nat) : ℝ) : ℂ) else 0⟩ }
    spread.normSum = 1 ∧ (mAll exampleConfig 0 0 ⟨spread, []⟩).1 = 2 ^ 21 - 1 ∧ spread.amplitude (2 ^ 21 - 1) = 0 :=
  have wide : 1 ≤ ((2 ^ 21 - 1 : Nat) : ℝ) * exampleConfig.real1Epsilon := by norm_num [exampleConfig]
  ⟨wide, mAll_collapses_onto_zero_amplitude exampleConfig ⟨0, none, 0, false, false, 0⟩ 21 0 0 wide⟩

-- `ProbReg(start, length, permutation)`: normalise when the engine normalises, `Finish()`, then reduce. It checks
-- no bound.
def probReg (start length perm : Nat) (a : Async) : ℝ × Async :=
  let a := (if a.engine.doNormalize then a.normalize cfg else a).finish
  match a.engine.stateVec with
  | none => (0, a)
  | some v => (clampProb (probRegChance sched start length perm a.engine.maxQPowerOcl v), a)

def probMask (mask perm : Nat) (a : Async) : Except Fault (ℝ × Async) :=
  if a.engine.maxQPowerOcl ≤ mask then .error (.invalidArgument "QEngineCPU::ProbMask mask out-of-bounds!")
  else
    let a := (if a.engine.doNormalize then a.normalize cfg else a).finish
    match a.engine.stateVec with
    | none => .ok (0, a)
    | some v => .ok (clampProb (probMaskChance sched mask perm a.engine.maxQPowerOcl v), a)

section QueryLaws

/- Each query reads the engine `r` left by its normalisation and `Finish()`; on a store `v` of `r` each
returns the clamped sum over the class of indices it names. -/

variable (a r : Async) (v : StateVector)

theorem prob_eq_clamp_sum (q : Nat) (inside : q < a.engine.qubitCount) (settled : (if a.engine.doNormalize then a.normalize cfg else a).finish = r)
    (store : r.engine.stateVec = some v) (wide : 2 ≤ r.engine.qubitCount) (within : q < r.engine.qubitCount) :
    a.prob cfg sched q = .ok (clampProb ((((List.range r.engine.maxQPowerOcl).filter fun i => i.testBit q).map
      fun i => Complex.normSq (v.amp i)).sum), r) := by
  simp only [prob, Nat.not_le.mpr inside, if_false, settled, store, QEngineCPU.maxQPowerOcl,
    oneChance_eq_sum sched cfg.build v _ q wide within]
  exact if_neg (by omega)

theorem probReg_eq_clamp_sum (start length perm : Nat) (small : perm < 2 ^ length) (settled : (if a.engine.doNormalize then a.normalize cfg else a).finish = r)
    (store : r.engine.stateVec = some v) (fits : start + length ≤ r.engine.qubitCount) :
    a.probReg cfg sched start length perm = (clampProb ((((List.range r.engine.maxQPowerOcl).filter
      fun i => (i >>> start) % 2 ^ length == perm).map fun i => Complex.normSq (v.amp i)).sum), r) := by
  simp only [probReg, settled, store, QEngineCPU.maxQPowerOcl,
    probRegChance_eq_sum sched v _ start length perm fits small]

theorem probMask_eq_clamp_sum (mask perm : Nat) (inside : mask < a.engine.maxQPowerOcl) (sub : perm &&& mask = perm)
    (settled : (if a.engine.doNormalize then a.normalize cfg else a).finish = r) (store : r.engine.stateVec = some v) (within : mask < r.engine.maxQPowerOcl) :
    a.probMask cfg sched mask perm = .ok (clampProb ((((List.range r.engine.maxQPowerOcl).filter
      fun i => i &&& mask == perm).map fun i => Complex.normSq (v.amp i)).sum), r) := by
  rw [probMask, if_neg (Nat.not_le.mpr inside)]
  simp only [settled, store, QEngineCPU.maxQPowerOcl, probMaskChance_eq_sum sched v _ mask perm within sub]

theorem probParity_eq_clamp_sum (mask : Nat) (inside : mask < a.engine.maxQPowerOcl) (nonzero : mask ≠ 0)
    (settled : (if a.engine.doNormalize then a.normalize cfg else a).finish = r) (store : r.engine.stateVec = some v) :
    a.probParity cfg sched mask = .ok (clampProb ((((List.range r.engine.maxQPowerOcl).filter
      (oddParity mask)).map fun i => Complex.normSq (v.amp i)).sum), r) := by
  simp only [probParity, Nat.not_le.mpr inside, if_false, settled, store, nonzero, parityOddChance_eq]

/-- `ProbReg(start, length, perm)` and `ProbMask` of the register's mask and `perm` shifted into it read the
same class of indices. -/
theorem probMask_field_eq_probReg (start length perm : Nat) (small : perm < 2 ^ length)
    (inside : (2 ^ length - 1) <<< start < a.engine.maxQPowerOcl)
    (settled : (if a.engine.doNormalize then a.normalize cfg else a).finish = r) (store : r.engine.stateVec = some v)
    (fits : start + length ≤ r.engine.qubitCount) :
    a.probMask cfg sched ((2 ^ length - 1) <<< start) (perm <<< start) = .ok (a.probReg cfg sched start length perm) := by
  rw [Nat.shiftLeft_eq (2 ^ length - 1)] at inside ⊢
  rw [probMask_eq_clamp_sum cfg sched a r v _ _ inside (shiftLeft_and_field_mask small) settled store
      (field_mask_lt fits), probReg_eq_clamp_sum cfg sched a r v start length perm small settled store fits]
  simp only [field_mask_beq]

theorem probMask_field_eq_probReg_pair :
    1 < 2 ^ 1 ∧ (2 ^ 1 - 1) <<< 1 < (⟨2, some ((StateVector.alloc 4).write 3 1), 1, false, false, 0⟩ : QEngineCPU).maxQPowerOcl ∧
      1 + 1 ≤ 2 ∧
    (⟨⟨2, some ((StateVector.alloc 4).write 3 1), 1, false, false, 0⟩, []⟩ : Async).probMask exampleConfig oneWorker
        ((2 ^ 1 - 1) <<< 1) (1 <<< 1) =
      .ok ((⟨⟨2, some ((StateVector.alloc 4).write 3 1), 1, false, false, 0⟩, []⟩ : Async).probReg exampleConfig oneWorker
        1 1 1) :=
  ⟨by decide, by decide, by decide, probMask_field_eq_probReg exampleConfig oneWorker
    ⟨⟨2, some ((StateVector.alloc 4).write 3 1), 1, false, false, 0⟩, []⟩
    ⟨⟨2, some ((StateVector.alloc 4).write 3 1), 1, false, false, 0⟩, []⟩ _ 1 1 1 (by decide) (by decide) rfl rfl
    (by decide)⟩

end QueryLaws

/-- On one qubit with normalisation off, `Prob(0)` returns `|ψ₁|²` as it is, while `ProbReg(0, 1, 1)`
and `ProbMask(1, 1)` clamp it: past 1 they return 1. -/
theorem prob_single_qubit_skips_clamp (e : QEngineCPU) (v : StateVector) (store : e.stateVec = some v)
    (single : e.qubitCount = 1) (plain : e.doNormalize = false) (heavy : 1 < Complex.normSq (v.amp 1)) :
    (prob cfg sched 0 ⟨e, []⟩).map Prod.fst = .ok (Complex.normSq (v.amp 1)) ∧
      (probReg cfg sched 0 1 1 ⟨e, []⟩).1 = 1 ∧ (probMask cfg sched 1 1 ⟨e, []⟩).map Prod.fst = .ok 1 := by
  have idle : (if e.doNormalize then (⟨e, []⟩ : Async).normalize cfg else ⟨e, []⟩).finish = ⟨e, []⟩ := by
    simp [plain, finish, runClosures]
  have two : e.maxQPowerOcl = 2 ^ 1 := by rw [QEngineCPU.maxQPowerOcl, single]
  have clamped : clampProb (Complex.normSq (v.amp 1)) = 1 := by
    rw [clampProb, min_eq_left heavy.le, max_eq_right zero_le_one]
  have reg : ((List.range (2 ^ 1)).filter fun i => (i >>> 0) % 2 ^ 1 == 1) = [1] := by decide
  have masked : ((List.range (2 ^ 1)).filter fun i => i &&& 1 == 1) = [1] := by decide
  refine ⟨?_, ?_, ?_⟩
  · simp [prob, single, idle, store, Except.map]
  · rw [probReg_eq_clamp_sum cfg sched ⟨e, []⟩ ⟨e, []⟩ v 0 1 1 (by decide) idle store (by simp [single])]
    simp only [two, reg, List.map_cons, List.map_nil, List.sum_cons, List.sum_nil, add_zero, clamped]
  · rw [probMask_eq_clamp_sum cfg sched ⟨e, []⟩ ⟨e, []⟩ v 1 1 (by simp [two]) rfl idle store (by simp [two])]
    simp only [two, masked, List.map_cons, List.map_nil, List.sum_cons, List.sum_nil, add_zero, clamped]
    rfl

theorem prob_single_qubit_skips_clamp_example :
    ((⟨1, some ((StateVector.alloc 2).write 1 2), 1, false, false, 0⟩ : QEngineCPU).stateVec =
        some ((StateVector.alloc 2).write 1 2) ∧ (1 : Nat) = 1 ∧ false = false ∧
      1 < Complex.normSq (((StateVector.alloc 2).write 1 2).amp 1)) ∧
    (prob exampleConfig oneWorker 0 ⟨⟨1, some ((StateVector.alloc 2).write 1 2), 1, false, false, 0⟩, []⟩).map
        Prod.fst = .ok (Complex.normSq (((StateVector.alloc 2).write 1 2).amp 1)) ∧
      (probReg exampleConfig oneWorker 0 1 1 ⟨⟨1, some ((StateVector.alloc 2).write 1 2), 1, false, false, 0⟩, []⟩).1
        = 1 ∧
      (probMask exampleConfig oneWorker 1 1 ⟨⟨1, some ((StateVector.alloc 2).write 1 2), 1, false, false, 0⟩, []⟩).map
        Prod.fst = .ok 1 :=
  have heavy : 1 < Complex.normSq (((StateVector.alloc 2).write 1 2).amp 1) := by
    simp [Complex.normSq]; norm_num
  ⟨⟨rfl, rfl, rfl, heavy⟩, prob_single_qubit_skips_clamp exampleConfig oneWorker
    ⟨1, some ((StateVector.alloc 2).write 1 2), 1, false, false, 0⟩ _ rfl rfl rfl heavy⟩

theorem forceMParity_idle (e : QEngineCPU) (v : StateVector) (store : e.stateVec = some v) (mask : Nat)
    (inside : mask < e.maxQPowerOcl) (nonzero : mask ≠ 0) (result : Bool) (rand : ℝ) :
    let loop := forceMParityLoop sched mask result e.maxQPowerOcl v
    let e' : QEngineCPU := { e with stateVec := some loop.1, runningNorm := loop.2 }
    (⟨e, []⟩ : Async).forceMParity cfg sched mask result true rand =
      .ok (result, ⟨if e.doNormalize then e' else e'.normalizeScale cfg loop.2 cfg.defaultArg 0, []⟩) := by
  intro loop e'
  have known : (forceMParityLoop sched mask result e.maxQPowerOcl v).2 ≠ cfg.defaultArg :=
    ne_of_gt (lt_of_lt_of_le cfg.defaultArg_neg (forceMParityLoop_nonneg sched mask result _ v))
  by_cases normalizing : e.doNormalize
  · simp [forceMParity, store, Nat.not_le.mpr inside, nonzero, normalizing, e', loop]
  · simp [forceMParity, store, Nat.not_le.mpr inside, nonzero, normalizing, normalize, finish, runClosures, e', loop, known]

/-- `ForceMParity(mask, result, true)` on an engine with nothing queued and a unit-norm store of `2^N`
amplitudes: it returns `result` and zeroes the other parity. An engine that normalises keeps the rest and
caches `P` as its running norm. One that does not normalises at once: below `FP_NORM_EPSILON` it drops to the
zero state; within `FP_NORM_EPSILON` of 1 it keeps the amplitudes unscaled; otherwise it divides them by
`√P`, flushing those under a positive amplitude floor. -/
theorem forceMParity_projects (e : QEngineCPU) (v : StateVector) (store : e.stateVec = some v)
    (shaped : v.size = e.maxQPowerOcl) (unit : v.normSum = 1) (mask : Nat) (positive : 0 < mask)
    (inside : mask < e.maxQPowerOcl) (result : Bool) (rand : ℝ) :
    let oddChance := (((List.range e.maxQPowerOcl).filter (oddParity mask)).map fun i => Complex.normSq (v.amp i)).sum
    let P := if result then oddChance else 1 - oddChance
    ∃ e', (⟨e, []⟩ : Async).forceMParity cfg sched mask result true rand = .ok (result, ⟨e', []⟩) ∧
      (∀ i < e.maxQPowerOcl, oddParity mask i ≠ result → e'.amplitude i = 0) ∧
      (e.doNormalize = true → e'.runningNorm = P ∧ ∀ i, oddParity mask i = result → e'.amplitude i = v.amp i) ∧
      (e.doNormalize = false → P ≤ cfg.fpNormEpsilon → ∀ i, e'.amplitude i = 0) ∧
      (e.doNormalize = false → cfg.fpNormEpsilon < P → |1 - P| ≤ cfg.fpNormEpsilon →
        ∀ i, oddParity mask i = result → e'.amplitude i = v.amp i) ∧
      (e.doNormalize = false → cfg.fpNormEpsilon < P → cfg.fpNormEpsilon < |1 - P| →
        ∀ i < e.maxQPowerOcl, oddParity mask i = result →
          e'.amplitude i = if 0 < e.amplitudeFloor ∧ Complex.normSq (v.amp i) < e.amplitudeFloor then 0
            else v.amp i / (Real.sqrt P : ℂ)) := by
  intro oddChance P
  have total : ((List.range e.maxQPowerOcl).map fun i => Complex.normSq (v.amp i)).sum = 1 := by
    rw [← unit, StateVector.normSum, shaped]
    simp [Finset.sum_eq_multiset_sum, Finset.range_val, Multiset.range]
  rw [forceMParity_idle cfg sched e v store mask inside positive.ne' result rand]
  obtain ⟨amp, chance⟩ := forceMParityLoop_spec sched mask result e.maxQPowerOcl v
  generalize forceMParityLoop sched mask result e.maxQPowerOcl v = loop at amp chance ⊢
  have norm : loop.2 = P := by
    rw [chance]
    cases result
    · have split := List.sum_map_filter_add_sum_map_filter_not (fun i => oddParity mask i = true)
        (fun i => Complex.normSq (v.amp i)) (List.range e.maxQPowerOcl)
      simp only [Bool.decide_eq_true, decide_not, total] at split
      simp only [P, oddChance, beq_false, Bool.false_eq_true, if_false]
      exact eq_sub_of_add_eq' split
    · simp [P, oddChance]
  have kept : ∀ i, oddParity mask i = result → loop.1.amp i = v.amp i := fun i same => by
    simp [amp, same]
  have dropped : ∀ i < e.maxQPowerOcl, oddParity mask i ≠ result → loop.1.amp i = 0 := fun i below other => by
    simp [amp, below, other]
  have eps := cfg.fpNormEpsilon_pos
  refine ⟨_, rfl, fun i below other => ?_, fun normalizing => ⟨?_, fun i same => ?_⟩, fun plain low i => ?_,
    fun plain high near i same => ?_, fun plain high far i below same => ?_⟩
  · by_cases normalizing : e.doNormalize
    · simp [normalizing, QEngineCPU.amplitude, dropped i below other]
    · rw [if_neg normalizing, QEngineCPU.normalizeScale_amplitude]
      simp [QEngineCPU.amplitude, dropped i below other]
  · simp [normalizing, norm]
  · simp [normalizing, QEngineCPU.amplitude, kept i same]
  · rw [plain, if_neg Bool.false_ne_true, QEngineCPU.normalizeScale_amplitude]
    simp [norm, low]
  · rw [plain, if_neg Bool.false_ne_true, QEngineCPU.normalizeScale_amplitude]
    simp [norm, not_le.mpr high, near, eps.le, QEngineCPU.amplitude, kept i same]
  · rw [plain, if_neg Bool.false_ne_true, QEngineCPU.normalizeScale_amplitude]
    simp only [QEngineCPU.maxQPowerOcl] at below
    simp [norm, not_le.mpr high, not_le.mpr far, below, cfg.defaultArg_neg, QEngineCPU.amplitude, kept i same,
      QEngineCPU.maxQPowerOcl, div_eq_inv_mul]

theorem forceMParity_projects_ground :
    let e : QEngineCPU := ⟨1, some ((StateVector.alloc 2).write 0 1), 1, false, false, 0⟩
    let v := (StateVector.alloc 2).write 0 1
    (e.stateVec = some v ∧ v.size = e.maxQPowerOcl ∧ v.normSum = 1 ∧ 0 < 1 ∧ 1 < e.maxQPowerOcl) ∧
    let oddChance := (((List.range e.maxQPowerOcl).filter (oddParity 1)).map fun i => Complex.normSq (v.amp i)).sum
    let P := if false then oddChance else 1 - oddChance
    ∃ e', (⟨e, []⟩ : Async).forceMParity exampleConfig oneWorker 1 false true 0 = .ok (false, ⟨e', []⟩) ∧
      (∀ i < e.maxQPowerOcl, oddParity 1 i ≠ false → e'.amplitude i = 0) ∧
      (e.doNormalize = true → e'.runningNorm = P ∧ ∀ i, oddParity 1 i = false → e'.amplitude i = v.amp i) ∧
      (e.doNormalize = false → P ≤ exampleConfig.fpNormEpsilon → ∀ i, e'.amplitude i = 0) ∧
      (e.doNormalize = false → exampleConfig.fpNormEpsilon < P → |1 - P| ≤ exampleConfig.fpNormEpsilon →
        ∀ i, oddParity 1 i = false → e'.amplitude i = v.amp i) ∧
      (e.doNormalize = false → exampleConfig.fpNormEpsilon < P → exampleConfig.fpNormEpsilon < |1 - P| →
        ∀ i < e.maxQPowerOcl, oddParity 1 i = false →
          e'.amplitude i = if 0 < e.amplitudeFloor ∧ Complex.normSq (v.amp i) < e.amplitudeFloor then 0
            else v.amp i / (Real.sqrt P : ℂ)) :=
  have unit : ((StateVector.alloc 2).write 0 1).normSum = 1 := by
    simp [StateVector.normSum, Finset.sum_range_succ]
  ⟨⟨rfl, rfl, unit, Nat.one_pos, by decide⟩, forceMParity_projects exampleConfig oneWorker
    ⟨1, some ((StateVector.alloc 2).write 0 1), 1, false, false, 0⟩ _ rfl rfl unit 1 Nat.one_pos (by decide) false 0⟩

def nearOnePair : StateVector :=
  ⟨2, fun i => if i = 0 then (Real.sqrt (1 - 1 / 2 ^ 21) : ℂ) else if i = 1 then (Real.sqrt (1 / 2 ^ 21) : ℂ) else 0⟩

theorem nearOnePair_normSq_zero : Complex.normSq (nearOnePair.amp 0) = 1 - 1 / 2 ^ 21 := by
  show Complex.normSq (Real.sqrt (1 - 1 / 2 ^ 21) : ℂ) = _
  rw [Complex.normSq_ofReal, Real.mul_self_sqrt (by norm_num)]

theorem nearOnePair_normSq_one : Complex.normSq (nearOnePair.amp 1) = 1 / 2 ^ 21 := by
  show Complex.normSq (Real.sqrt (1 / 2 ^ 21) : ℂ) = _
  rw [Complex.normSq_ofReal, Real.mul_self_sqrt (by norm_num)]

/-- One qubit, mask 1, result 0, on `nearOnePair` with normalisation off: `P_0 = 1 - 2^-21` is within
`FP_NORM_EPSILON` of 1, so `NormalizeState()` keeps `ψ[0]` as it is, not `ψ[0] / √P_0 = 1`. -/
theorem forceMParity_keeps_unscaled_near_one :
    let P1 := (((List.range 2).filter (oddParity 1)).map fun i => Complex.normSq (nearOnePair.amp i)).sum
    nearOnePair.normSum = 1 ∧ ∃ a, (⟨⟨1, some nearOnePair, 1, false, false, 0⟩, []⟩ : Async).forceMParity exampleConfig
      oneWorker 1 false true 0 = .ok (false, a) ∧ a.engine.amplitude 0 ≠ nearOnePair.amp 0 / (Real.sqrt (1 - P1) : ℂ) := by
  intro P1
  have even : (List.range 2).filter (fun lcv => oddParity 1 lcv == false) = [0] := by decide
  have rescaled : nearOnePair.amp 0 / (Real.sqrt (1 - P1) : ℂ) = 1 := by
    have odd : (List.range 2).filter (oddParity 1) = [1] := by decide
    have pos : Real.sqrt (1 - 1 / 2 ^ 21) ≠ 0 := (Real.sqrt_pos.mpr (by norm_num)).ne'
    simp only [P1, odd, List.map_cons, List.map_nil, List.sum_cons, List.sum_nil, add_zero, nearOnePair_normSq_one]
    exact div_self (Complex.ofReal_ne_zero.mpr pos)
  obtain ⟨amp, chance⟩ := forceMParityLoop_spec oneWorker 1 false 2 nearOnePair
  have kept : (forceMParityLoop oneWorker 1 false 2 nearOnePair).1.amp 0 = nearOnePair.amp 0 := by
    simp [amp, show oddParity 1 0 = false by decide]
  have total : (forceMParityLoop oneWorker 1 false 2 nearOnePair).2 = 1 - 1 / 2 ^ 21 := by
    simp only [chance, even, List.map_cons, List.map_nil, List.sum_cons, List.sum_nil, add_zero, nearOnePair_normSq_zero]
  refine ⟨?_, _, forceMParity_idle exampleConfig oneWorker ⟨1, some nearOnePair, 1, false, false, 0⟩ nearOnePair rfl 1
    (by decide) one_ne_zero false 0, ?_⟩
  · show ∑ i ∈ Finset.range 2, Complex.normSq (nearOnePair.amp i) = 1
    rw [Finset.sum_range_succ, Finset.sum_range_one, nearOnePair_normSq_zero, nearOnePair_normSq_one]
    ring
  · rw [rescaled, if_neg Bool.false_ne_true, QEngineCPU.normalizeScale_amplitude,
      show (⟨1, some nearOnePair, 1, false, false, 0⟩ : QEngineCPU).maxQPowerOcl = 2 from rfl, total,
      if_neg (by norm_num [exampleConfig]),
      if_pos ⟨by norm_num [exampleConfig, abs_le], by norm_num [exampleConfig]⟩]
    show (forceMParityLoop oneWorker 1 false 2 nearOnePair).1.amp 0 ≠ 1
    rw [kept, Ne, show nearOnePair.amp 0 = (Real.sqrt (1 - 1 / 2 ^ 21) : ℂ) from rfl, Complex.ofReal_eq_one,
      Real.sqrt_eq_one]
    norm_num

end Async

end

end Qrack
