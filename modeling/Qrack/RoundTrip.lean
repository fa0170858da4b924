import Qrack.Decompose

set_option autoImplicit false

/- `Compose(toCopy, start)` followed by `Decompose(start, destination)`. `Compose` writes the product of two
   amplitudes at the index `DecomposeDispose` reads it back from; the reduction lemmas say what
   `DecomposeDispose`'s probability-and-angle pass makes of a product state. Probabilities always come back.
   Each factor's phases come back turned by the mean phase of the other factor when no product phase wraps
   past `±π`, and not otherwise. -/

namespace Qrack

section Bits

variable (start len n : Nat)

theorem testBit_decomposeIndex (r k i : Nat) (hk : k < 2 ^ len) :
    (decomposeIndex start len r k).testBit i =
      if i < start then r.testBit i else if i < start + len then k.testBit (i - start) else r.testBit (i - len) := by
  have kHigh : ∀ j, len ≤ j → k.testBit j = false := fun j hj =>
    Nat.testBit_eq_false_of_lt (lt_of_lt_of_le hk (Nat.pow_le_pow_right (by norm_num) hj))
  have upper : r ^^^ (r &&& (2 ^ start - 1)) = andNot r (2 ^ start - 1) := rfl
  simp only [decomposeIndex, upper, Nat.testBit_or, Nat.testBit_and, testBit_andNot, Nat.testBit_shiftLeft,
    Nat.testBit_two_pow_sub_one]
  by_cases low : i < start
  · have : ¬ start ≤ i := by omega
    by_cases shifted : len ≤ i
    · have : i - len < start := by omega
      simp [low, this, shifted]
    · simp [low, this, shifted]
  · by_cases mid : i < start + len
    · by_cases shifted : len ≤ i
      · have : i - len < start := by omega
        simp [low, mid, this, shifted, Nat.le_of_not_lt low]
      · simp [low, mid, shifted, Nat.le_of_not_lt low]
    · have : ¬ i - len < start := by omega
      simp [low, mid, this, kHigh (i - start) (by omega), Nat.le_of_not_lt low, show len ≤ i by omega]

variable {start len n}

theorem decomposeIndex_lt {r k : Nat} (hr : r < 2 ^ n) (hk : k < 2 ^ len) (inside : start ≤ n) :
    decomposeIndex start len r k < 2 ^ (n + len) := by
  apply Nat.lt_pow_two_of_testBit
  intro i hi
  have rHigh := Nat.testBit_eq_false_of_lt (lt_of_lt_of_le hr (Nat.pow_le_pow_right (by norm_num) (show n ≤ i - len by omega)))
  rw [testBit_decomposeIndex start len r k i hk, if_neg (Nat.not_lt.mpr (inside.trans (by omega))), if_neg (by omega),
    rHigh]

theorem composeSplit_fst_decomposeIndex {r k : Nat} (hr : r < 2 ^ n) (hk : k < 2 ^ len) :
    (composeSplit n len start (decomposeIndex start len r k)).1 = r := by
  apply Nat.eq_of_testBit_eq
  intro i
  rw [testBit_composeSplit_fst, testBit_decomposeIndex start len r k _ hk]
  by_cases low : i < start
  · rw [if_pos low, if_pos low]
  · rw [if_neg low, testBit_decomposeIndex start len r k _ hk, if_neg (by omega), if_neg (by omega),
      Nat.add_sub_cancel_left]
    by_cases high : i < n
    · rw [decide_eq_true high, Bool.true_and]
    · rw [decide_eq_false high, Bool.false_and,
        Nat.testBit_lt_two_pow (lt_of_lt_of_le hr (Nat.pow_le_pow_right two_pos (Nat.not_lt.mp high)))]

theorem composeSplit_snd_decomposeIndex {r k : Nat} (hk : k < 2 ^ len) :
    (composeSplit n len start (decomposeIndex start len r k)).2 = k := by
  apply Nat.eq_of_testBit_eq
  intro i
  rw [testBit_composeSplit_snd, testBit_decomposeIndex start len r k _ hk, if_neg (by omega)]
  by_cases inPart : i < len
  · rw [decide_eq_true inPart, Bool.true_and, if_pos (by omega), Nat.add_sub_cancel_left]
  · rw [decide_eq_false inPart, Bool.false_and,
      Nat.testBit_lt_two_pow (lt_of_lt_of_le hk (Nat.pow_le_pow_right two_pos (Nat.not_lt.mp inPart)))]

theorem composeSplit_decomposeIndex {r k : Nat} (hr : r < 2 ^ n) (hk : k < 2 ^ len) :
    composeSplit n len start (decomposeIndex start len r k) = (r, k) :=
  Prod.ext (composeSplit_fst_decomposeIndex hr hk) (composeSplit_snd_decomposeIndex hk)

end Bits

noncomputable section

theorem polar_abs_arg_add (z : ℂ) (β : ℝ) : polar (Complex.abs z) (z.arg + β) = z * polar 1 β := by
  apply Complex.ext
  · simp only [polar, Real.cos_add, Complex.mul_re, one_mul]
    rw [← Complex.abs_mul_cos_arg z, ← Complex.abs_mul_sin_arg z]
    ring
  · simp only [polar, Real.sin_add, Complex.mul_im, one_mul]
    rw [← Complex.abs_mul_cos_arg z, ← Complex.abs_mul_sin_arg z]
    ring

section Product

variable (x y : Nat → ℂ) (n : Nat) (unit : ∑ j ∈ Finset.range n, Complex.normSq (y j) = 1)

def meanArg : ℝ := ∑ j ∈ Finset.range n, (y j).arg * Complex.normSq (y j)

include unit in
theorem reduce_prob_mul (floor : ℝ) (i : Nat) : (reduce floor n fun i j => x i * y j).prob i = Complex.normSq (x i) := by
  simp [reduce, Complex.normSq_mul, ← Finset.mul_sum, unit]

include unit in
theorem reduce_angle_mul (i : Nat)
    (noWrap : ∀ j < n, x i ≠ 0 → y j ≠ 0 → (x i).arg + (y j).arg ∈ Set.Ioc (-Real.pi) Real.pi) :
    (reduce 0 n fun i j => x i * y j).angle i = if x i = 0 then 0 else (x i).arg + meanArg y n := by
  by_cases zero : x i = 0
  · simp only [reduce, zero, zero_mul, Complex.normSq_zero, lt_irrefl, if_false, Finset.sum_const_zero, if_true]
  · have term : ∀ j ∈ Finset.range n,
        (if 0 < Complex.normSq (x i * y j) then (x i * y j).arg * Complex.normSq (x i * y j) else 0) =
          Complex.normSq (x i) * ((x i).arg * Complex.normSq (y j) + (y j).arg * Complex.normSq (y j)) := by
      intro j mem
      by_cases yzero : y j = 0
      · simp [yzero]
      · rw [if_pos (Complex.normSq_pos.mpr (mul_ne_zero zero yzero)),
          Complex.arg_mul zero yzero (noWrap j (Finset.mem_range.mp mem) zero yzero), Complex.normSq_mul]
        ring
    have pos := Complex.normSq_pos.mpr zero
    simp only [reduce]
    rw [Finset.sum_congr rfl term]
    simp only [Complex.normSq_mul, ← Finset.mul_sum, Finset.sum_add_distrib, ← Finset.sum_mul, unit, mul_one, if_pos pos,
      zero, if_false, meanArg]
    exact mul_div_cancel_left₀ _ pos.ne'

include unit in
theorem reduce_amplitude_mul (i : Nat)
    (noWrap : ∀ j < n, x i ≠ 0 → y j ≠ 0 → (x i).arg + (y j).arg ∈ Set.Ioc (-Real.pi) Real.pi) :
    (reduce 0 n fun i j => x i * y j).amplitude i = x i * polar 1 (meanArg y n) := by
  rw [ReducedState.amplitude, reduce_prob_mul x y n unit, reduce_angle_mul x y n unit i noWrap, ← Complex.abs_apply]
  split
  · next zero => simp [zero, polar]; rfl
  · exact polar_abs_arg_add _ _

end Product

theorem reduce_amplitude_congr (floor : ℝ) (n : Nat) (amp amp' : Nat → Nat → ℂ) (i : Nat)
    (agree : ∀ j < n, amp i j = amp' i j) :
    (reduce floor n amp).amplitude i = (reduce floor n amp').amplitude i := by
  have probs : ∑ j ∈ Finset.range n, Complex.normSq (amp i j) = ∑ j ∈ Finset.range n, Complex.normSq (amp' i j) :=
    Finset.sum_congr rfl fun j mem => by rw [agree j (Finset.mem_range.mp mem)]
  have angles : (∑ j ∈ Finset.range n,
        if floor < Complex.normSq (amp i j) then (amp i j).arg * Complex.normSq (amp i j) else 0) =
      ∑ j ∈ Finset.range n,
        if floor < Complex.normSq (amp' i j) then (amp' i j).arg * Complex.normSq (amp' i j) else 0 :=
    Finset.sum_congr rfl fun j mem => by rw [agree j (Finset.mem_range.mp mem)]
  simp only [ReducedState.amplitude, reduce, probs, angles]

end

section RoundTrip

noncomputable section

variable (cfg : Config)

theorem normalized_eq_self_of_cached (small : cfg.fpNormEpsilon < 1) (e : QEngineCPU)
    (cached : e.doNormalize = true → e.runningNorm = 1) : (if e.doNormalize then e.normalize cfg else e) = e := by
  split
  · next normalizing => exact QEngineCPU.normalize_of_runningNorm_one cfg small e (cached normalizing)
  · rfl

theorem compose_decompose_eq (small : cfg.fpNormEpsilon < 1) (a b d : QEngineCPU) (va vb : StateVector) (start : Nat)
    (rand : ℝ) (storeA : a.stateVec = some va) (storeB : b.stateVec = some vb)
    (qubitsA : 0 < a.qubitCount) (qubitsB : 0 < b.qubitCount) (inside : start ≤ a.qubitCount)
    (room : a.qubitCount + b.qubitCount ≤ cfg.maxCpuQb)
    (cachedA : a.doNormalize = true → a.runningNorm = 1) (cachedB : b.doNormalize = true → b.runningNorm = 1)
    (width : d.qubitCount = b.qubitCount) :
    ∃ a1 a2 d2, a.composeAt cfg b start = .ok (start, a1, b) ∧ a1.decompose cfg d start rand = .ok (a2, d2) ∧
      a2.qubitCount = a.qubitCount ∧ d2.qubitCount = b.qubitCount ∧
      (∀ r < 2 ^ a.qubitCount, a2.amplitude r =
        (reduce a.amplitudeFloor (2 ^ b.qubitCount) fun r k => va.amp r * vb.amp k).amplitude r) ∧
      (∀ k < 2 ^ b.qubitCount, d2.amplitude k =
        (reduce a.amplitudeFloor (2 ^ a.qubitCount) fun k r => vb.amp k * va.amp r).amplitude k) := by
  have keepA := normalized_eq_self_of_cached cfg small a cachedA
  have keepB := normalized_eq_self_of_cached cfg small b cachedB
  have compose := QEngineCPU.composeAt_eq_product cfg a b va vb start storeA storeB qubitsA qubitsB inside room va vb
    (by rw [keepA, storeA]) (by rw [keepB, storeB])
  rw [keepA, keepB] at compose
  have read : ∀ r < 2 ^ a.qubitCount, ∀ k < 2 ^ b.qubitCount,
      (StateVector.generate (2 ^ (a.qubitCount + b.qubitCount)) fun lcv =>
        va.amp (composeSplit a.qubitCount b.qubitCount start lcv).1 *
          vb.amp (composeSplit a.qubitCount b.qubitCount start lcv).2).amp
          (decomposeIndex start b.qubitCount r k) = va.amp r * vb.amp k := fun r hr k hk => by
    rw [StateVector.generate_amp, if_pos (decomposeIndex_lt hr hk inside), composeSplit_decomposeIndex hr hk]
  generalize StateVector.generate _ _ = w at compose read
  obtain ⟨u, storeD⟩ : ∃ u, (if d.stateVec.isNone then d.setPermutation 0 none rand else d).stateVec = some u := by
    cases present : d.stateVec with
    | none => exact ⟨_, by simp only [present, Option.isNone_none, if_true]; rfl⟩
    | some u => exact ⟨u, by simp [present]⟩
  have decomp := QEngineCPU.decompose_eq_reduce cfg { a with qubitCount := a.qubitCount + b.qubitCount, stateVec := some w }
    d w start rand (by dsimp only; omega) (width ▸ qubitsB) (by dsimp only; omega) rfl
    (normalized_eq_self_of_cached cfg small _ cachedA) u storeD
  simp only [width, Nat.add_sub_cancel] at decomp
  refine ⟨_, _, _, compose, decomp, rfl, ?_, fun r hr => ?_, fun k hk => ?_⟩
  · by_cases absent : d.stateVec.isNone <;> simp [absent, width, QEngineCPU.setPermutation]
  · simp only [QEngineCPU.amplitude, StateVector.generate_amp, if_pos hr]
    exact reduce_amplitude_congr _ _ _ _ r fun k hk => read r hr k hk
  · simp only [QEngineCPU.amplitude, StateVector.mapBelow, if_pos hk]
    exact reduce_amplitude_congr _ _ _ _ k fun r hr => (read r hr k hk).trans (mul_comm _ _)

def plusIAmp (r : Nat) : ℂ := if r = 0 then (Real.sqrt (1 / 2) : ℂ) else if r = 1 then (Real.sqrt (1 / 2) : ℂ) * Complex.I else 0

def minusAmp (k : Nat) : ℂ := if k = 0 then (Real.sqrt (1 / 2) : ℂ) else if k = 1 then -(Real.sqrt (1 / 2) : ℂ) else 0

theorem reduce_plusI_minus :
    (reduce 0 2 fun r k => plusIAmp r * minusAmp k).amplitude 0 = (Real.sqrt (1 / 2) : ℂ) * Complex.I ∧
      (reduce 0 2 fun r k => plusIAmp r * minusAmp k).amplitude 1 = (Real.sqrt (1 / 2) : ℂ) := by
  have half : Real.sqrt (1 / 2) * Real.sqrt (1 / 2) = 1 / 2 := Real.mul_self_sqrt (by norm_num)
  have p00 : plusIAmp 0 * minusAmp 0 = ((1 / 2 : ℝ) : ℂ) := by
    simp only [plusIAmp, minusAmp, if_true]; rw [← Complex.ofReal_mul, half]
  have p01 : plusIAmp 0 * minusAmp 1 = ((-(1 / 2) : ℝ) : ℂ) := by
    simp only [plusIAmp, minusAmp, if_true, one_ne_zero, if_false, mul_neg]; rw [← Complex.ofReal_mul, half]; simp
  have halfC : ((1 / 2 : ℝ) : ℂ) = (Real.sqrt (1 / 2) : ℂ) * (Real.sqrt (1 / 2) : ℂ) := by
    rw [← Complex.ofReal_mul, half]
  have p10 : plusIAmp 1 * minusAmp 0 = ((1 / 2 : ℝ) : ℂ) * Complex.I := by
    simp only [plusIAmp, minusAmp, if_true, one_ne_zero, if_false]; rw [halfC]; ring
  have p11 : plusIAmp 1 * minusAmp 1 = ((1 / 2 : ℝ) : ℂ) * -Complex.I := by
    simp only [plusIAmp, minusAmp, if_true, one_ne_zero, if_false]; rw [halfC]; ring
  have pos : (0 : ℝ) < 1 / 2 := by norm_num
  simp only [reduce, ReducedState.amplitude, Finset.sum_range_succ, Finset.sum_range_zero, zero_add, p00, p01, p10, p11]
  simp only [Complex.arg_ofReal_of_nonneg pos.le, Complex.arg_ofReal_of_neg (neg_neg_of_pos pos), Complex.arg_real_mul _ pos,
    Complex.arg_I, Complex.arg_neg_I, Complex.normSq_ofReal, Complex.normSq_mul, Complex.normSq_I, Complex.normSq_neg]
  have quarter : (0 : ℝ) < 1 / 2 * (1 / 2) ∧ (0 : ℝ) < -(1 / 2) * -(1 / 2) ∧ (0 : ℝ) < 1 / 2 * (1 / 2) * 1 := by norm_num
  have total : (1 / 2 * (1 / 2) + -(1 / 2) * -(1 / 2) : ℝ) = 1 / 2 ∧ (1 / 2 * (1 / 2) * 1 + 1 / 2 * (1 / 2) * 1 : ℝ) = 1 / 2 :=
    by norm_num
  have angle0 : (0 * (1 / 2 * (1 / 2)) + Real.pi * (-(1 / 2) * -(1 / 2))) / (1 / 2 : ℝ) = Real.pi / 2 := by ring
  have angle1 : (Real.pi / 2 * (1 / 2 * (1 / 2) * 1) + -(Real.pi / 2) * (1 / 2 * (1 / 2) * 1)) / (1 / 2 : ℝ) = 0 := by ring
  simp only [quarter, total, if_true, pos, angle0, angle1]
  constructor <;> apply Complex.ext <;>
    simp only [polar, Complex.mul_re, Complex.mul_im, Complex.ofReal_re, Complex.ofReal_im, Complex.I_re, Complex.I_im,
      Real.cos_pi_div_two, Real.sin_pi_div_two, Real.cos_zero, Real.sin_zero] <;> ring

/-- `Compose(B, 1)` then `Decompose(1, D)` with `A = (|0⟩ + i|1⟩)/√2` and `B = (|0⟩ - |1⟩)/√2`, both of
unit norm: the product phase `arg i + arg (-1)` wraps past `π`, and `A` comes back as
`(i|0⟩ + |1⟩)/√2`, which is no phase multiple of it. -/
theorem compose_decompose_loses_phase :
    let A : QEngineCPU := ⟨1, some ⟨2, plusIAmp⟩, 1, false, false, 0⟩
    let B : QEngineCPU := ⟨1, some ⟨2, minusAmp⟩, 1, false, false, 0⟩
    StateVector.normSum ⟨2, plusIAmp⟩ = 1 ∧ StateVector.normSum ⟨2, minusAmp⟩ = 1 ∧
      ∃ A1 A2 D2, A.composeAt exampleConfig B 1 = .ok (1, A1, B) ∧
        A1.decompose exampleConfig ⟨1, none, 1, false, false, 0⟩ 1 0 = .ok (A2, D2) ∧
        A2.qubitCount = 1 ∧ ¬ ∃ α : ℝ, ∀ r < 2, A2.amplitude r = polar 1 α * plusIAmp r := by
  intro A B
  have half : Real.sqrt (1 / 2) * Real.sqrt (1 / 2) = 1 / 2 := Real.mul_self_sqrt (by norm_num)
  obtain ⟨A1, A2, D2, compose, decomp, count, -, amp, -⟩ := compose_decompose_eq exampleConfig
    exampleConfig_small A B ⟨1, none, 1, false, false, 0⟩ ⟨2, plusIAmp⟩ ⟨2, minusAmp⟩ 1 0 rfl rfl
    Nat.one_pos Nat.one_pos le_rfl (by decide) (fun _ => rfl) (fun _ => rfl) rfl
  have units : StateVector.normSum ⟨2, plusIAmp⟩ = 1 ∧ StateVector.normSum ⟨2, minusAmp⟩ = 1 := by
    have sum : (1 / 2 + 1 / 2 : ℝ) = 1 := by norm_num
    constructor <;>
      simp only [StateVector.normSum, Finset.sum_range_succ, Finset.sum_range_zero, zero_add, plusIAmp, minusAmp,
        one_ne_zero, if_false, if_true, Complex.normSq_mul, Complex.normSq_ofReal, Complex.normSq_I, Complex.normSq_neg,
        mul_one, half, sum]
  refine ⟨units.1, units.2, A1, A2, D2, compose, decomp, count, ?_⟩
  rintro ⟨α, phase⟩
  have nonzero : (Real.sqrt (1 / 2) : ℂ) ≠ 0 := Complex.ofReal_ne_zero.mpr (Real.sqrt_pos.mpr (by norm_num)).ne'
  have read (r : Nat) (below : r < 2) : (reduce 0 2 fun r k => plusIAmp r * minusAmp k).amplitude r =
      polar 1 α * plusIAmp r := (amp r below).symm.trans (phase r below)
  have first : (Real.sqrt (1 / 2) : ℂ) * Complex.I = polar 1 α * Real.sqrt (1 / 2) := by
    have read0 := read 0 (by norm_num)
    rwa [reduce_plusI_minus.1, plusIAmp, if_pos rfl] at read0
  have second : (Real.sqrt (1 / 2) : ℂ) = polar 1 α * (Real.sqrt (1 / 2) * Complex.I) := by
    have read1 := read 1 (by norm_num)
    rwa [reduce_plusI_minus.2, plusIAmp, if_neg one_ne_zero, if_pos rfl] at read1
  have flipped : (Real.sqrt (1 / 2) : ℂ) = -Real.sqrt (1 / 2) := by
    calc (Real.sqrt (1 / 2) : ℂ) = polar 1 α * (Real.sqrt (1 / 2) * Complex.I) := second
      _ = polar 1 α * Real.sqrt (1 / 2) * Complex.I := by ring
      _ = Real.sqrt (1 / 2) * Complex.I * Complex.I := by rw [first]
      _ = -Real.sqrt (1 / 2) := by rw [mul_assoc, Complex.I_mul_I, mul_neg_one]
  exact nonzero (CharZero.eq_neg_self_iff.mp flipped)

/-- The round trip on product states whose phases do not wrap: with the amplitude floor at 0 and each
engine's cache at 1 when it normalises, `Compose(B, start)` then `Decompose(start, D)` give `A` its
qubit count and its amplitudes back turned by the mean phase of `B`, and give `D` the amplitudes of `B`
turned by the mean phase of `A`. -/
theorem compose_decompose_round_trip (small : cfg.fpNormEpsilon < 1) (a b d : QEngineCPU) (va vb : StateVector)
    (start : Nat) (rand : ℝ) (storeA : a.stateVec = some va) (storeB : b.stateVec = some vb)
    (qubitsA : 0 < a.qubitCount) (qubitsB : 0 < b.qubitCount) (inside : start ≤ a.qubitCount)
    (room : a.qubitCount + b.qubitCount ≤ cfg.maxCpuQb)
    (cachedA : a.doNormalize = true → a.runningNorm = 1) (cachedB : b.doNormalize = true → b.runningNorm = 1)
    (floor : a.amplitudeFloor = 0) (width : d.qubitCount = b.qubitCount)
    (unitA : ∑ r ∈ Finset.range (2 ^ a.qubitCount), Complex.normSq (va.amp r) = 1)
    (unitB : ∑ k ∈ Finset.range (2 ^ b.qubitCount), Complex.normSq (vb.amp k) = 1)
    (noWrap : ∀ r < 2 ^ a.qubitCount, ∀ k < 2 ^ b.qubitCount, va.amp r ≠ 0 → vb.amp k ≠ 0 →
      (va.amp r).arg + (vb.amp k).arg ∈ Set.Ioc (-Real.pi) Real.pi) :
    ∃ a1 a2 d2, a.composeAt cfg b start = .ok (start, a1, b) ∧ a1.decompose cfg d start rand = .ok (a2, d2) ∧
      a2.qubitCount = a.qubitCount ∧ d2.qubitCount = b.qubitCount ∧
      (∀ r < 2 ^ a.qubitCount, a2.amplitude r = polar 1 (meanArg vb.amp (2 ^ b.qubitCount)) * va.amp r) ∧
      ∀ k < 2 ^ b.qubitCount, d2.amplitude k = polar 1 (meanArg va.amp (2 ^ a.qubitCount)) * vb.amp k := by
  obtain ⟨a1, a2, d2, compose, decomp, countA, countD, ampA, ampD⟩ := compose_decompose_eq cfg small a b d va vb start
    rand storeA storeB qubitsA qubitsB inside room cachedA cachedB width
  refine ⟨a1, a2, d2, compose, decomp, countA, countD, fun r hr => ?_, fun k hk => ?_⟩
  · rw [ampA r hr, floor, reduce_amplitude_mul va.amp vb.amp _ unitB r fun k hk => noWrap r hr k hk, mul_comm]
  · rw [ampD k hk, floor, reduce_amplitude_mul vb.amp va.amp _ unitA k fun r hr nonzeroB nonzeroA =>
      add_comm (va.amp r).arg _ ▸ noWrap r hr k hk nonzeroA nonzeroB, mul_comm]

theorem compose_decompose_round_trip_ground :
    exampleConfig.fpNormEpsilon < 1 ∧
    (⟨1, some ((StateVector.alloc 2).write 1 1), 1, true, false, 0⟩ : QEngineCPU).stateVec =
      some ((StateVector.alloc 2).write 1 1) ∧
    ∃ a1 a2 d2, (⟨1, some ((StateVector.alloc 2).write 1 1), 1, true, false, 0⟩ : QEngineCPU).composeAt exampleConfig
        ⟨1, some ((StateVector.alloc 2).write 1 1), 1, true, false, 0⟩ 0 =
          .ok (0, a1, ⟨1, some ((StateVector.alloc 2).write 1 1), 1, true, false, 0⟩) ∧
      a1.decompose exampleConfig ⟨1, some ((StateVector.alloc 2).write 1 1), 1, true, false, 0⟩ 0 0 = .ok (a2, d2) ∧
      a2.qubitCount = 1 ∧ d2.qubitCount = 1 ∧
      (∀ r < 2 ^ 1, a2.amplitude r =
        polar 1 (meanArg ((StateVector.alloc 2).write 1 1).amp (2 ^ 1)) * ((StateVector.alloc 2).write 1 1).amp r) ∧
      ∀ k < 2 ^ 1, d2.amplitude k =
        polar 1 (meanArg ((StateVector.alloc 2).write 1 1).amp (2 ^ 1)) * ((StateVector.alloc 2).write 1 1).amp k := by
  have unit : ∑ r ∈ Finset.range (2 ^ 1), Complex.normSq (((StateVector.alloc 2).write 1 1).amp r) = 1 := by
    simp [Finset.sum_range_succ]
  have noWrap : ∀ r < 2 ^ 1, ∀ k < 2 ^ 1, ((StateVector.alloc 2).write 1 1).amp r ≠ 0 →
      ((StateVector.alloc 2).write 1 1).amp k ≠ 0 →
      (((StateVector.alloc 2).write 1 1).amp r).arg + (((StateVector.alloc 2).write 1 1).amp k).arg ∈
        Set.Ioc (-Real.pi) Real.pi := by
    intro r _ k _ nonzeroR nonzeroK
    have r1 : r = 1 := by by_contra other; simp [other] at nonzeroR
    have k1 : k = 1 := by by_contra other; simp [other] at nonzeroK
    simp [r1, k1, Real.pi_pos, Real.pi_pos.le]
  have small : exampleConfig.fpNormEpsilon < 1 := exampleConfig_small
  exact ⟨small, rfl, compose_decompose_round_trip exampleConfig small ⟨1, some ((StateVector.alloc 2).write 1 1), 1, true,
    false, 0⟩ ⟨1, some ((StateVector.alloc 2).write 1 1), 1, true, false, 0⟩ ⟨1, some ((StateVector.alloc 2).write 1 1),
    1, true, false, 0⟩ _ _ 0 0 rfl rfl Nat.one_pos Nat.one_pos (Nat.zero_le _) (by decide) (fun _ => rfl) (fun _ => rfl)
    rfl rfl unit unit noWrap⟩

end

end RoundTrip

end Qrack
