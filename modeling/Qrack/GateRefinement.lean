import Qrack.NormInvariant

set_option autoImplicit false

/- The gates as what they are for, and the engine as a refinement of that. An abstract register of `N`
   qubits is its amplitudes, a function on the permutations, and each gate is a map on it: `Mtrx(m, q)`
   mixes each pair of permutations apart in bit `q` by the matrix `m`, `XMask(mask)` flips the mask bits,
   `UniformParityRZ(mask, θ)` and `PhaseParity(2θ, mask)` turn each permutation by the phase of its parity.
   Every run of these calls succeeds and leaves the store that the abstract maps make of the store it
   started from, when every matrix entry the kernel selection treats as zero is zero, every mask lies inside
   the register, and the parity loop of `PhaseParity` fits the index word. This holds on an engine that does
   not normalise. It also holds on one that does, in the packed build with no amplitude floor, from a store
   of norm 1 whose cache holds 1, with matrices that keep pair norms: there `Mtrx` scales by `1 / √1` and
   recomputes the cache as 1, so the run stays in that state. -/
namespace Qrack

noncomputable section

def applyOne (m : Mtrx) (q : Nat) (ψ : Nat → ℂ) : Nat → ℂ := fun i =>
  if i.testBit q then m 2 * ψ (i - 2 ^ q) + m 3 * ψ i else m 0 * ψ i + m 1 * ψ (i + 2 ^ q)

def ExactEntries (cfg : Config) (m : Mtrx) : Prop := ∀ k, isNorm0 cfg (m k) = true → m k = 0

namespace EngineCall

-- What each gate call is for, as a map on the amplitudes; the other calls are not gates here.
def act : EngineCall → (Nat → ℂ) → Nat → ℂ
  | mtrx m q, ψ => applyOne m q ψ
  | xMask mask, ψ => fun i => ψ (i ^^^ mask)
  | uniformParityRZ mask angle, ψ => fun i => parityPhase angle (oddParity mask i) * ψ i
  | phaseParity radians mask, ψ => fun i => parityPhase (radians / 2) (oddParity mask i) * ψ i
  | _, ψ => ψ

def actAll (calls : List EngineCall) (ψ : Nat → ℂ) : Nat → ℂ := calls.foldl (fun ψ c => c.act ψ) ψ

def Refinable (cfg : Config) (wordBytes N : Nat) : EngineCall → Prop
  | mtrx m q => q < N ∧ ExactEntries cfg m
  | xMask mask => mask < 2 ^ N
  | uniformParityRZ mask _ => mask < 2 ^ N
  | phaseParity _ mask => 0 < mask ∧ mask < 2 ^ N ∧ ∃ j, wordBytes = 2 ^ j ∧ N ≤ 8 * 2 ^ j
  | _ => False

end EngineCall

section Bits

theorem testBit_of_between {x k : Nat} (low : 2 ^ k ≤ x) (high : x < 2 ^ (k + 1)) : x.testBit k = true := by
  have rest : x - 2 ^ k < 2 ^ k := by rw [Nat.pow_succ] at high; omega
  have flipped := Nat.testBit_two_pow_add_eq (x - 2 ^ k) k
  rw [Nat.add_sub_cancel' low, Nat.testBit_lt_two_pow rest] at flipped
  exact flipped

theorem eq_two_pow_log2 {mask : Nat} (single : isPowerOfTwo mask = true) : mask = 2 ^ mask.log2 := by
  simp only [isPowerOfTwo, Bool.and_eq_true, bne_iff_ne, ne_eq, beq_iff_eq] at single
  obtain ⟨nonzero, clear⟩ := single
  have low := Nat.log2_self_le nonzero
  by_contra other
  have bitMask := testBit_of_between low (Nat.lt_log2_self (n := mask))
  have bitPrev := testBit_of_between (by omega : 2 ^ mask.log2 ≤ mask - 1) (by have := Nat.lt_log2_self (n := mask); omega)
  have bitAnd := congrArg (Nat.testBit · mask.log2) clear
  simp [Nat.testBit_and, bitMask, bitPrev] at bitAnd

theorem oddParity_two_pow (q i : Nat) : oddParity (2 ^ q) i = i.testBit q := by
  have single : popCountOcl (2 ^ q) = 1 := by
    rw [← lowBitCount_eq_popCountOcl (Nat.pow_lt_pow_right (by decide) (Nat.lt_succ_self q)), lowBitCount,
      List.range_succ, List.countP_append]
    simp [List.countP_eq_zero, Nat.testBit_two_pow]
    exact fun a below => (Nat.ne_of_lt below).symm
  rw [oddParity, Nat.and_two_pow]
  cases i.testBit q
  · simp [popCountOcl]
  · rw [Bool.toNat_true, one_mul, single]
    rfl

theorem testBit_sub_two_pow {i q : Nat} (set : i.testBit q = true) : (i - 2 ^ q).testBit q = false := by
  have flipped := Nat.testBit_two_pow_add_eq (i - 2 ^ q) q
  rw [Nat.add_sub_cancel' (Nat.testBit_implies_ge set), set] at flipped
  simpa using flipped.symm

theorem xor_two_pow_of_clear {l q : Nat} (clear : l.testBit q = false) : l ^^^ 2 ^ q = l + 2 ^ q := by
  rw [add_two_pow_eq_or clear]
  apply Nat.eq_of_testBit_eq
  intro j
  simp only [Nat.testBit_xor, Nat.testBit_or, Nat.testBit_two_pow]
  by_cases same : q = j
  · subst same; simp [clear]
  · simp [same]

theorem xor_two_pow_eq (i q : Nat) : i ^^^ 2 ^ q = if i.testBit q then i - 2 ^ q else i + 2 ^ q := by
  split
  · next set =>
      have atLeast : 2 ^ q ≤ i := Nat.testBit_implies_ge set
      have clear := testBit_sub_two_pow set
      calc i ^^^ 2 ^ q = (i - 2 ^ q) ^^^ 2 ^ q ^^^ 2 ^ q := by
            rw [xor_two_pow_of_clear clear, Nat.sub_add_cancel atLeast]
        _ = i - 2 ^ q := Nat.xor_cancel_right _ _
  · next clear => exact xor_two_pow_of_clear (by simpa using clear)

end Bits

section Steps

variable (cfg : Config) (sched : Schedule)

theorem kernelProduct_exact (m : Mtrx) (exact : ExactEntries cfg m) (y0 y1 : ℂ) :
    kernelProduct m (kernelShape cfg m) none y0 y1 = (m 0 * y0 + m 1 * y1, m 2 * y0 + m 3 * y1) := by
  unfold kernelShape
  split_ifs with diagonal antiDiagonal
  · simp only [Bool.and_eq_true] at diagonal
    simp [kernelProduct, exact 1 diagonal.1, exact 2 diagonal.2]
  · simp only [Bool.and_eq_true] at antiDiagonal
    simp [kernelProduct, exact 0 antiDiagonal.1, exact 3 antiDiagonal.2]
  · rfl

theorem exactEntries_of_unit_or_zero (small : cfg.fpNormEpsilon < 1) (m : Mtrx)
    (entries : ∀ k, m k = 0 ∨ Complex.normSq (m k) = 1) : ExactEntries cfg m := fun k norm0 =>
  (entries k).resolve_right fun unit => by simp [isNorm0, unit, not_le.mpr small] at norm0

theorem exactEntries_pauliX (small : cfg.fpNormEpsilon < 1) : ExactEntries cfg pauliX :=
  exactEntries_of_unit_or_zero cfg small _ fun k => by fin_cases k <;> simp [pauliX]

theorem inv_parityPhase_true (angle : ℝ) : (parityPhase angle true)⁻¹ = parityPhase angle false := by
  simp only [parityPhase_eq_exp, ← Complex.exp_neg, if_true, Bool.false_eq_true, if_false, Complex.ofReal_neg, neg_mul]

theorem foldl_targetPairs_amp {n q : Nat} (v : StateVector) (F : Nat → ℂ → ℂ → ℂ × ℂ) (i : Nat) (below : i < 2 ^ n) :
    ((parForMask (2 ^ n) [2 ^ q]).foldl (StateVector.pairStep (· + 0) (· + 2 ^ q) F) v).amp i =
      if i.testBit q then (F (i - 2 ^ q) (v.amp (i - 2 ^ q)) (v.amp i)).2 else (F i (v.amp i) (v.amp (i + 2 ^ q))).1 := by
  split
  · next set =>
      have atLeast : 2 ^ q ≤ i := Nat.testBit_implies_ge set
      have clear := testBit_sub_two_pow set
      have mem : i - 2 ^ q ∈ parForMask (2 ^ n) [2 ^ q] := (mem_targetPairs _).mpr ⟨(Nat.sub_le _ _).trans_lt below, clear⟩
      simpa [Nat.sub_add_cancel atLeast] using (StateVector.foldl_pairStep_pair _ _ F _ v targetPairs_disjoint _ mem).2
  · next clear =>
      have mem : i ∈ parForMask (2 ^ n) [2 ^ q] := (mem_targetPairs _).mpr ⟨below, by simpa using clear⟩
      simpa using (StateVector.foldl_pairStep_pair _ _ F _ v targetPairs_disjoint _ mem).1

theorem foldl_kernelProduct_amp {n q : Nat} (m : Mtrx) (exact : ExactEntries cfg m) (v : StateVector) (i : Nat)
    (below : i < 2 ^ n) :
    ((parForMask (2 ^ n) [2 ^ q]).foldl
      (StateVector.pairStep (· + 0) (· + 2 ^ q) fun _ => kernelProduct m (kernelShape cfg m) none) v).amp i =
      applyOne m q v.amp i := by
  rw [foldl_targetPairs_amp v _ i below, applyOne]
  split <;> simp [kernelProduct_exact cfg m exact]

-- The engines the refinement covers, with their store `v`: one that does not normalise, or, in the packed build
-- with no amplitude floor, one whose store of `2 ^ qubitCount` amplitudes has norm 1 and whose cache holds 1.
def RefinableEngine (e : QEngineCPU) (v : StateVector) : Prop :=
  e.doNormalize = false ∨
    (cfg.build = .packed ∧ e.amplitudeFloor ≤ 0 ∧ e.runningNorm = 1 ∧ v.size = e.maxQPowerOcl ∧ v.normSum = 1)

variable {cfg}

theorem RefinableEngine.keep {e : QEngineCPU} {v w : StateVector} (engine : RefinableEngine cfg e v)
    (keeps : e.doNormalize = true → v.size = e.maxQPowerOcl → w.size = v.size ∧ w.normSum = v.normSum) :
    RefinableEngine cfg e w := by
  rcases engine with plain | ⟨packed, noFloor, one, sized, unit⟩
  · exact .inl plain
  · cases normalizing : e.doNormalize
    · exact .inl normalizing
    · obtain ⟨size, norm⟩ := keeps normalizing sized
      exact .inr ⟨packed, noFloor, one, size.trans sized, norm.trans unit⟩

theorem keeps_of_rewritesUnitarily {e : QEngineCPU} {v w : StateVector} (store : e.stateVec = some v)
    (rewrite : RewritesUnitarily e { e with stateVec := some w }) : w.size = v.size ∧ w.normSum = v.normSum := by
  obtain ⟨v', w', store', same, size, norm⟩ := rewrite
  rw [store, Option.some.injEq] at store'
  have written : some w = some w' := congrArg QEngineCPU.stateVec same
  rw [Option.some.injEq] at written
  subst store' written
  exact ⟨size, norm⟩

variable (cfg)
variable (e : QEngineCPU) (v : StateVector) (store : e.stateVec = some v) (engine : RefinableEngine cfg e v)
  (small : cfg.fpNormEpsilon < 1)

include store small in
theorem mtrx_normalizing_unit (normalizing : e.doNormalize = true) (packed : cfg.build = .packed)
    (noFloor : e.amplitudeFloor ≤ 0) (one : e.runningNorm = 1) (sized : v.size = e.maxQPowerOcl)
    (unit : v.normSum = 1) (m : Mtrx) (q : Nat) (target : q < e.qubitCount) (unitary : PairUnitary cfg m) :
    e.mtrx cfg sched m q = .ok { e with stateVec := some ((parForMask (2 ^ e.qubitCount) [2 ^ q]).foldl
      (StateVector.pairStep (· + 0) (· + 2 ^ q) fun _ => kernelProduct m (kernelShape cfg m) none) v) } ∧
    ((parForMask (2 ^ e.qubitCount) [2 ^ q]).foldl
      (StateVector.pairStep (· + 0) (· + 2 ^ q) fun _ => kernelProduct m (kernelShape cfg m) none) v).normSum = 1 := by
  have kept : ((parForMask (2 ^ e.qubitCount) [2 ^ q]).foldl
      (StateVector.pairStep (· + 0) (· + 2 ^ q) fun _ => kernelProduct m (kernelShape cfg m) none) v).normSum = 1 := by
    rw [← unit]
    exact normSum_foldl_targetPairs_of_pairs v sized target _ fun _ => unitary
  have total := normCalc_targetPairs_exact sched q v sized target (kernelProduct m (kernelShape cfg m) none)
  rw [normCalcKernel, StateVector.foldl_accumStep_stateVec, kept] at total
  refine ⟨?_, kept⟩
  rw [mtrx_normalizing cfg sched e v store m q target normalizing, one]
  unfold apply2x2Kernel
  simp only [store, cfg.defaultArg_neg, if_true, not_lt.mpr noFloor, if_false, zero_lt_one, decide_True,
    Real.sqrt_one, div_one, sub_self, abs_zero, not_lt.mpr cfg.real1Epsilon_pos.le, decide_False, packed,
    Bool.not_true, Bool.false_eq_true, QEngineCPU.maxQPowerOcl, normCalcKernel, total, not_le.mpr small,
    StateVector.foldl_accumStep_stateVec]

include store engine small

theorem mtrx_refines (m : Mtrx) (q : Nat) (target : q < e.qubitCount) (exact : ExactEntries cfg m)
    (unitary : e.doNormalize = true → PairUnitary cfg m) :
    ∃ w, e.mtrx cfg sched m q = .ok { e with stateVec := some w } ∧ RefinableEngine cfg e w ∧
      ∀ i < e.maxQPowerOcl, w.amp i = applyOne m q v.amp i := by
  refine ⟨_, ?_, ?_, fun i below => foldl_kernelProduct_amp cfg m exact v i below⟩
  · by_cases normalizing : e.doNormalize = true
    · obtain ⟨packed, noFloor, one, sized, unit⟩ := engine.resolve_left (by simp [normalizing])
      exact (mtrx_normalizing_unit cfg sched e v store small normalizing packed noFloor one sized unit m q target
        (unitary normalizing)).1
    · exact mtrx_plain cfg sched e v store m q target (by simpa using normalizing)
  · refine engine.keep fun normalizing sized => ⟨by simp, ?_⟩
    obtain ⟨packed, noFloor, one, -, unit⟩ := engine.resolve_left (by simp [normalizing])
    rw [unit]
    exact (mtrx_normalizing_unit cfg sched e v store small normalizing packed noFloor one sized unit m q target
      (unitary normalizing)).2

theorem xMask_refines (mask : Nat) (inside : mask < e.maxQPowerOcl) :
    ∃ w, ((⟨e, []⟩ : Async).xMask cfg sched false mask).map Async.engine = .ok { e with stateVec := some w } ∧
      RefinableEngine cfg e w ∧ ∀ i < e.maxQPowerOcl, w.amp i = v.amp (i ^^^ mask) := by
  by_cases zero : mask = 0
  · have same : { e with stateVec := some v } = e := by rw [← store]
    subst zero
    refine ⟨v, ?_, engine, fun i _ => by rw [Nat.xor_zero]⟩
    simp [Async.xMask, inside.ne', store, Except.map, same]
  by_cases single : isPowerOfTwo mask
  · obtain ⟨q, rfl⟩ : ∃ q, mask = 2 ^ q := ⟨_, eq_two_pow_log2 single⟩
    have target : q < e.qubitCount := (Nat.pow_lt_pow_iff_right (by decide)).mp inside
    obtain ⟨w, run, kept, amp⟩ := mtrx_refines cfg sched e v store engine small pauliX q target
      (exactEntries_pauliX cfg small) fun _ => pairUnitary_pauliX cfg small
    refine ⟨w, ?_, kept, fun i below => ?_⟩
    · rw [Async.xMask, if_neg (Nat.not_le.mpr inside)]
      simp only [store]
      rw [if_neg zero, if_pos single, Nat.log2_two_pow, Async.mtrx, gate_now_engine]
      exact run
    · rw [amp i below, applyOne, xor_two_pow_eq]
      split <;> simp [pauliX]
  · have kernel := xMaskKernel_eq mask e v store inside zero
    refine ⟨_, ?_, engine.keep fun _ sized => keeps_of_rewritesUnitarily store
      (kernel ▸ xMaskKernel_unitary e v store mask sized inside zero), fun i below => if_pos below⟩
    rw [Async.xMask_dispatches cfg sched _ v store mask inside zero (by simpa using single) false]
    simp only [Async.dispatch, Async.finish, runClosures, Except.map, List.foldl]
    rw [kernel]
    rfl

omit engine small in
theorem uniformParityRZKernel_turns (mask : Nat) (angle : ℝ) :
    uniformParityRZKernel mask angle e = { e with stateVec := some (v.mapBelow e.maxQPowerOcl fun lcv amp =>
      amp * parityPhase angle (oddParity mask lcv)) } ∧
    (v.mapBelow e.maxQPowerOcl fun lcv amp => amp * parityPhase angle (oddParity mask lcv)).normSum = v.normSum :=
  ⟨by rw [uniformParityRZKernel, store],
    StateVector.normSum_mapBelow v _ _ fun _ _ => by rw [Complex.normSq_mul, normSq_parityPhase, mul_one]⟩

omit small in
theorem uniformParityRZ_refines (mask : Nat) (inside : mask < e.maxQPowerOcl) (angle : ℝ) :
    ∃ w, e.uniformParityRZ mask angle = .ok { e with stateVec := some w } ∧ RefinableEngine cfg e w ∧
      ∀ i < e.maxQPowerOcl, w.amp i = parityPhase angle (oddParity mask i) * v.amp i := by
  obtain ⟨kernel, norm⟩ := uniformParityRZKernel_turns e v store mask angle
  refine ⟨v.mapBelow e.maxQPowerOcl fun lcv amp => amp * parityPhase angle (oddParity mask lcv), ?_,
    engine.keep fun _ _ => ⟨rfl, norm⟩, fun i below => ?_⟩
  · simp only [QEngineCPU.uniformParityRZ, QEngineCPU.uniformParityRZCall, if_neg (Nat.not_le.mpr inside), store,
      Except.map, runClosures, List.foldl, kernel]
  · simp [StateVector.mapBelow, below, mul_comm]

theorem phaseParity_refines (radians : ℝ) (mask : Nat) (nonzero : 0 < mask) (inside : mask < e.maxQPowerOcl)
    (j : Nat) (fits : e.qubitCount ≤ 8 * 2 ^ j) :
    ∃ w, e.phaseParity cfg sched (2 ^ j) radians mask = .ok { e with stateVec := some w } ∧ RefinableEngine cfg e w ∧
      ∀ i < e.maxQPowerOcl, w.amp i = parityPhase (radians / 2) (oddParity mask i) * v.amp i := by
  by_cases single : isPowerOfTwo mask
  · obtain ⟨q, rfl⟩ : ∃ q, mask = 2 ^ q := ⟨_, eq_two_pow_log2 single⟩
    have target : q < e.qubitCount := (Nat.pow_lt_pow_iff_right (by decide)).mp inside
    let phaseFac := parityPhase (radians / 2) true
    have unitInv : Complex.normSq (1 / phaseFac) = 1 := by simp [phaseFac]
    have exact : ExactEntries cfg ![1 / phaseFac, 0, 0, phaseFac] :=
      exactEntries_of_unit_or_zero cfg small _ fun k => by fin_cases k <;> simp [phaseFac]
    obtain ⟨w, run, kept, amp⟩ := mtrx_refines cfg sched e v store engine small _ q target exact
      fun _ => pairUnitary_diagonal cfg _ _ unitInv (normSq_parityPhase _ _)
    refine ⟨w, ?_, kept, fun i below => ?_⟩
    · simp only [QEngineCPU.phaseParity, QEngineCPU.phaseParityCall, if_neg (Nat.not_le.mpr inside), store,
        if_neg nonzero.ne', if_pos single, Nat.log2_two_pow]
      exact run
    · rw [amp i below, applyOne, oddParity_two_pow]
      cases i.testBit q <;> simp [phaseFac, inv_parityPhase_true]
  · obtain ⟨w, run, kept, amp⟩ := uniformParityRZ_refines cfg e v store engine mask inside (radians / 2)
    refine ⟨w, ?_, kept, amp⟩
    simp only [QEngineCPU.uniformParityRZ, QEngineCPU.uniformParityRZCall, if_neg (Nat.not_le.mpr inside), store,
      Except.map, runClosures, List.foldl] at run
    simp only [QEngineCPU.phaseParity, QEngineCPU.phaseParityCall, if_neg (Nat.not_le.mpr inside), store,
      if_neg nonzero.ne', if_neg single, Except.map, runClosures, List.foldl,
      phaseParityKernel_eq e v store mask inside j fits radians]
    exact run

end Steps

namespace EngineCall

section Refinement

variable (cfg : Config) (sched : Schedule) (wordBytes : Nat)

theorem act_congr {N : Nat} (c : EngineCall) (refinable : c.Refinable cfg wordBytes N) (ψ φ : Nat → ℂ)
    (agree : ∀ i < 2 ^ N, ψ i = φ i) (i : Nat) (below : i < 2 ^ N) : c.act ψ i = c.act φ i := by
  cases c
  case mtrx m q =>
    have pair : q < N → i.testBit q = false → i + 2 ^ q < 2 ^ N := fun target clear => by
      rw [add_two_pow_eq_or clear]
      exact Nat.or_lt_two_pow below (Nat.pow_lt_pow_right (by decide) target)
    simp only [act, applyOne]
    split
    · rw [agree _ ((Nat.sub_le _ _).trans_lt below), agree i below]
    · next clear => rw [agree i below, agree _ (pair refinable.1 (by simpa using clear))]
  case xMask mask => exact agree _ (Nat.xor_lt_two_pow below refinable)
  case uniformParityRZ => simp only [act, agree i below]
  case phaseParity => simp only [act, agree i below]
  all_goals exact refinable.elim

theorem actAll_congr {N : Nat} (calls : List EngineCall) (refinable : ∀ c ∈ calls, c.Refinable cfg wordBytes N)
    (ψ φ : Nat → ℂ) (agree : ∀ i < 2 ^ N, ψ i = φ i) : ∀ i < 2 ^ N, actAll calls ψ i = actAll calls φ i := by
  induction calls generalizing ψ φ with
  | nil => exact agree
  | cons c calls ih =>
      exact ih (fun c' mem => refinable c' (List.mem_cons_of_mem _ mem)) _ _
        (act_congr cfg wordBytes c (refinable c (List.mem_cons_self _ _)) ψ φ agree)

variable (small : cfg.fpNormEpsilon < 1) (e : QEngineCPU) (v : StateVector) (store : e.stateVec = some v)
  (engine : RefinableEngine cfg e v)

include small store engine in
theorem run_refines (c : EngineCall) (refinable : c.Refinable cfg wordBytes e.qubitCount)
    (unitary : e.doNormalize = true → c.Unitary cfg) :
    ∃ w, c.run cfg sched wordBytes e = .ok { e with stateVec := some w } ∧ RefinableEngine cfg e w ∧
      ∀ i < e.maxQPowerOcl, w.amp i = c.act v.amp i := by
  cases c
  case mtrx m q => exact mtrx_refines cfg sched e v store engine small m q refinable.1 refinable.2 unitary
  case xMask mask => exact xMask_refines cfg sched e v store engine small mask refinable
  case uniformParityRZ mask angle => exact uniformParityRZ_refines cfg e v store engine mask refinable angle
  case phaseParity radians mask =>
    obtain ⟨nonzero, inside, j, rfl, fits⟩ := refinable
    exact phaseParity_refines cfg sched e v store engine small radians mask nonzero inside j fits
  all_goals exact refinable.elim

/-- Once `FP_NORM_EPSILON < 1`, every run of refinable gate calls on a refinable engine (one that does
not normalise, or one that does from a unit store whose cache holds 1, with norm-keeping matrices, in the
packed build with no floor) succeeds, keeps everything but the store and the engine refinable, and leaves
in the register what the calls' maps make of the register it started from. -/
theorem runAll_refines (small : cfg.fpNormEpsilon < 1) (calls : List EngineCall) (e : QEngineCPU)
    (v : StateVector) (store : e.stateVec = some v) (engine : RefinableEngine cfg e v)
    (refinable : ∀ c ∈ calls, c.Refinable cfg wordBytes e.qubitCount ∧ (e.doNormalize = true → c.Unitary cfg)) :
    ∃ w, runAll cfg sched wordBytes calls e = .ok { e with stateVec := some w } ∧ RefinableEngine cfg e w ∧
      ∀ i < e.maxQPowerOcl, w.amp i = actAll calls v.amp i := by
  induction calls generalizing e v with
  | nil => exact ⟨v, by rw [← store]; rfl, engine, fun _ _ => rfl⟩
  | cons c calls ih =>
      obtain ⟨first, unitary⟩ := refinable c (List.mem_cons_self _ _)
      obtain ⟨w₁, step, engine₁, agree⟩ := run_refines cfg sched wordBytes small e v store engine c first unitary
      have later : ∀ c' ∈ calls, c'.Refinable cfg wordBytes e.qubitCount ∧ (e.doNormalize = true → c'.Unitary cfg) :=
        fun c' mem => refinable c' (List.mem_cons_of_mem _ mem)
      obtain ⟨w, rest, engine', amp⟩ := ih { e with stateVec := some w₁ } w₁ rfl engine₁ later
      refine ⟨w, ?_, engine', fun i below => ?_⟩
      · rw [runAll, List.foldlM_cons, step]
        exact rest
      · rw [amp i below]
        exact actAll_congr cfg wordBytes calls (fun c' mem => (later c' mem).1) _ _ agree i below

theorem runAll_refines_pair :
    exampleConfig.fpNormEpsilon < 1 ∧
    RefinableEngine exampleConfig ⟨2, some ((StateVector.alloc 4).write 0 1), 1, true, false, 0⟩
      ((StateVector.alloc 4).write 0 1) ∧
    (∀ c ∈ [mtrx pauliX 0, xMask 3, phaseParity 1 3],
      c.Refinable exampleConfig 8 2 ∧ (true = true → c.Unitary exampleConfig)) ∧
    ∃ w, runAll exampleConfig oneWorker 8 [mtrx pauliX 0, xMask 3, phaseParity 1 3]
        ⟨2, some ((StateVector.alloc 4).write 0 1), 1, true, false, 0⟩ = .ok ⟨2, some w, 1, true, false, 0⟩ ∧
      RefinableEngine exampleConfig ⟨2, some ((StateVector.alloc 4).write 0 1), 1, true, false, 0⟩ w ∧
      ∀ i < 4, w.amp i = actAll [mtrx pauliX 0, xMask 3, phaseParity 1 3] ((StateVector.alloc 4).write 0 1).amp i :=
  have small : exampleConfig.fpNormEpsilon < 1 := exampleConfig_small
  have engine : RefinableEngine exampleConfig ⟨2, some ((StateVector.alloc 4).write 0 1), 1, true, false, 0⟩
      ((StateVector.alloc 4).write 0 1) :=
    .inr ⟨rfl, le_rfl, rfl, rfl, by simp [StateVector.normSum, Finset.sum_range_succ, StateVector.write,
      StateVector.alloc]⟩
  have refinable : ∀ c ∈ [mtrx pauliX 0, xMask 3, phaseParity 1 3],
      c.Refinable exampleConfig 8 2 ∧ (true = true → c.Unitary exampleConfig) := by
    intro c mem
    simp only [List.mem_cons, List.mem_singleton, List.not_mem_nil, or_false] at mem
    rcases mem with rfl | rfl | rfl
    · exact ⟨⟨by decide, exactEntries_pauliX exampleConfig small⟩, fun _ => pairUnitary_pauliX exampleConfig small⟩
    · exact ⟨(by decide : 3 < 2 ^ 2), fun _ => trivial⟩
    · exact ⟨⟨by decide, by decide, 3, rfl, by decide⟩, fun _ => trivial⟩
  ⟨small, engine, refinable, runAll_refines exampleConfig oneWorker 8 small _ _ _ rfl engine refinable⟩

end Refinement

end EngineCall

end

end Qrack
