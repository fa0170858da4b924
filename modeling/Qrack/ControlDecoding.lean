import Qrack.Circuit

set_option autoImplicit false

/- How `UniformlyControlledSingleBit` finds the matrix for a pair. The controls are packed into a dense
   number, the skip powers are re-inserted as zero bits by the low/high split loop, the value mask is or-ed
   in, and the result times 4 indexes the payload. The split loop is the spec's zero-bit insertion for
   ascending skip powers; its result is the only number with the skip bits clear whose other bits spell the
   packed controls, and it keeps every payload read inside the array. The pending normalisation
   `1/√runningNorm` is folded in only when `ONE_R1 - nrm > FP_NORM_EPSILON`, a test that fails for every
   cached norm below 1. -/

namespace Qrack

noncomputable section

/-- Modelled from the spec: a 0 bit inserted at position `a`, the bits from `a` up moved one higher. -/
def insertZeroBit (a x : Nat) : Nat := x % 2 ^ a ||| (x >>> a) <<< (a + 1)

/-- Modelled from the spec: a 0 bit inserted at each skip-power position, lowest first. -/
def insertZeroBits (as : List Nat) (x : Nat) : Nat := as.foldl (fun x a => insertZeroBit a x) x

theorem testBit_insertZeroBit_self (a x : Nat) : (insertZeroBit a x).testBit a = false := by
  simp [insertZeroBit, Nat.testBit_or, Nat.testBit_mod_two_pow, Nat.testBit_shiftLeft]

example : insertZeroBits [1, 3] 0b111 = 0b10101 := by decide

theorem deposit_step (a i h : Nat) (low : i < 2 ^ a) :
    (i ||| h &&& (2 ^ a - 1)) ||| (h ^^^ h &&& (2 ^ a - 1)) <<< 1 = insertZeroBit a (i ||| h) := by
  apply Nat.eq_of_testBit_eq
  intro j
  have iHigh : ∀ k, a ≤ k → i.testBit k = false := fun k above =>
    Nat.testBit_eq_false_of_lt (lt_of_lt_of_le low (Nat.pow_le_pow_right Nat.two_pos above))
  simp only [insertZeroBit, Nat.testBit_or, Nat.testBit_and, Nat.testBit_xor, Nat.testBit_shiftLeft,
    Nat.testBit_shiftRight, Nat.testBit_mod_two_pow, Nat.testBit_two_pow_sub_one]
  rcases Nat.lt_trichotomy j a with below | same | above
  · simp [below, show j - 1 < a by omega, show ¬ a + 1 ≤ j by omega]
  · subst same
    rcases Nat.eq_zero_or_pos j with zero | pos
    · subst zero; simp [iHigh 0 le_rfl]
    · simp [iHigh j le_rfl, show j - 1 < j by omega]
  · simp [iHigh j above.le, iHigh (j - 1) (by omega), show a + (j - (a + 1)) = j - 1 by omega, show ¬ j < a by omega,
      show ¬ j - 1 < a by omega, show a + 1 ≤ j by omega, show 1 ≤ j by omega]

theorem foldl_deposit (as : List Nat) (ascending : as.Sorted (· < ·)) (i h : Nat) (low : ∀ a ∈ as, i < 2 ^ a) :
    let split := (as.map (2 ^ ·)).foldl (fun (acc : Nat × Nat) p =>
      let iLow := acc.2 &&& (p - 1)
      (acc.1 ||| iLow, (acc.2 ^^^ iLow) <<< 1)) (i, h)
    split.1 ||| split.2 = insertZeroBits as (i ||| h) := by
  induction as generalizing i h with
  | nil => simp [insertZeroBits]
  | cons a as ih =>
      obtain ⟨above, ascending⟩ := List.sorted_cons.mp ascending
      have low' : ∀ b ∈ as, i ||| h &&& (2 ^ a - 1) < 2 ^ b := fun b mem =>
        lt_of_lt_of_le (Nat.or_lt_two_pow (low a (List.mem_cons_self a as))
          (lt_of_le_of_lt Nat.and_le_right (Nat.sub_lt (Nat.two_pow_pos a) Nat.one_pos)))
          (Nat.pow_le_pow_right Nat.two_pos (above b mem).le)
      simp only [List.map_cons, List.foldl_cons]
      rw [ih ascending _ _ low', deposit_step a i h (low a (List.mem_cons_self a as))]
      rfl

theorem depositSkips_eq_insertZeroBits (as : List Nat) (ascending : as.Sorted (· < ·)) (offset : Nat) :
    depositSkips (as.map (2 ^ ·)) offset = insertZeroBits as offset := by
  have split := foldl_deposit as ascending 0 offset fun a _ => Nat.two_pow_pos a
  rwa [Nat.zero_or] at split

/-- Modelled from the spec: the bit at `a` removed, the bits above it moved one lower. -/
def removeBit (a x : Nat) : Nat := x % 2 ^ a ||| (x >>> (a + 1)) <<< a

/-- Modelled from the spec: the bits at the skip positions removed, highest first, so that what
remains, read from low to high, is one number. -/
def removeBits (as : List Nat) (x : Nat) : Nat := as.foldr removeBit x

example : removeBits [1, 3] 0b10101 = 0b111 := by decide

section ZeroBits

variable {a x j : Nat}

theorem testBit_insertZeroBit :
    (insertZeroBit a x).testBit j = if j < a then x.testBit j else if j = a then false else x.testBit (j - 1) := by
  simp only [insertZeroBit, Nat.testBit_or, Nat.testBit_mod_two_pow, Nat.testBit_shiftLeft, Nat.testBit_shiftRight]
  rcases Nat.lt_trichotomy j a with below | same | above
  · simp [below, show ¬ a + 1 ≤ j by omega]
  · subst same; simp
  · simp [show ¬ j < a by omega, show j ≠ a by omega, show a + 1 ≤ j by omega, show a + (j - (a + 1)) = j - 1 by omega]

theorem testBit_removeBit : (removeBit a x).testBit j = if j < a then x.testBit j else x.testBit (j + 1) := by
  simp only [removeBit, Nat.testBit_or, Nat.testBit_mod_two_pow, Nat.testBit_shiftLeft, Nat.testBit_shiftRight]
  by_cases below : j < a
  · simp [below, show ¬ a ≤ j by omega]
  · simp [below, show a ≤ j by omega, show a + 1 + (j - a) = j + 1 by omega]

theorem removeBit_insertZeroBit : removeBit a (insertZeroBit a x) = x :=
  Nat.eq_of_testBit_eq fun j => by
    by_cases below : j < a
    · simp [testBit_removeBit, testBit_insertZeroBit, below]
    · simp [testBit_removeBit, testBit_insertZeroBit, below, show ¬ j + 1 < a by omega, show j + 1 ≠ a by omega]

theorem insertZeroBit_removeBit (clear : x.testBit a = false) : insertZeroBit a (removeBit a x) = x :=
  Nat.eq_of_testBit_eq fun j => by
    rcases Nat.lt_trichotomy j a with below | rfl | above
    · simp [testBit_removeBit, testBit_insertZeroBit, below]
    · simp [testBit_insertZeroBit, clear]
    · simp [testBit_removeBit, testBit_insertZeroBit, show ¬ j < a by omega, show j ≠ a by omega,
        show ¬ j - 1 < a by omega, show j - 1 + 1 = j by omega]

theorem testBit_insertZeroBit_of_lt (below : j < a) : (insertZeroBit a x).testBit j = x.testBit j := by
  simp [testBit_insertZeroBit, below]

theorem testBit_removeBit_of_lt (below : j < a) : (removeBit a x).testBit j = x.testBit j := by
  simp [testBit_removeBit, below]

theorem insertZeroBit_lt {w : Nat} (small : x < 2 ^ w) : insertZeroBit a x < 2 ^ (w + 1) :=
  Nat.lt_pow_two_of_testBit _ fun j above => by
    rw [testBit_insertZeroBit]
    split_ifs
    · exact Nat.testBit_lt_two_pow (lt_of_lt_of_le small (Nat.pow_le_pow_right two_pos (by omega)))
    · rfl
    · exact Nat.testBit_lt_two_pow (lt_of_lt_of_le small (Nat.pow_le_pow_right two_pos (by omega)))

end ZeroBits

section SkipLists

variable {as : List Nat} {x j : Nat}

theorem removeBits_insertZeroBits (as : List Nat) (x : Nat) : removeBits as (insertZeroBits as x) = x := by
  induction as generalizing x with
  | nil => rfl
  | cons a as ih =>
      show removeBit a (removeBits as (insertZeroBits as (insertZeroBit a x))) = x
      rw [ih, removeBit_insertZeroBit]

theorem testBit_insertZeroBits_of_lt (low : ∀ a ∈ as, j < a) : (insertZeroBits as x).testBit j = x.testBit j := by
  induction as generalizing x with
  | nil => rfl
  | cons a as ih =>
      show (insertZeroBits as (insertZeroBit a x)).testBit j = _
      rw [ih fun b mem => low b (List.mem_cons_of_mem a mem),
        testBit_insertZeroBit_of_lt (low a (List.mem_cons_self a as))]

theorem testBit_removeBits_of_lt (low : ∀ a ∈ as, j < a) : (removeBits as x).testBit j = x.testBit j := by
  induction as with
  | nil => rfl
  | cons a as ih =>
      show (removeBit a (removeBits as x)).testBit j = _
      rw [testBit_removeBit_of_lt (low a (List.mem_cons_self a as)), ih fun b mem => low b (List.mem_cons_of_mem a mem)]

theorem testBit_insertZeroBits_skip (ascending : as.Sorted (· < ·)) {a : Nat} (mem : a ∈ as) :
    (insertZeroBits as x).testBit a = false := by
  induction as generalizing x with
  | nil => cases mem
  | cons b as ih =>
      obtain ⟨above, ascending⟩ := List.sorted_cons.mp ascending
      show (insertZeroBits as (insertZeroBit b x)).testBit a = false
      rcases List.mem_cons.mp mem with rfl | later
      · rw [testBit_insertZeroBits_of_lt above, testBit_insertZeroBit_self]
      · exact ih ascending later

theorem insertZeroBits_removeBits (ascending : as.Sorted (· < ·)) (clear : ∀ a ∈ as, x.testBit a = false) :
    insertZeroBits as (removeBits as x) = x := by
  induction as with
  | nil => rfl
  | cons a as ih =>
      obtain ⟨above, ascending⟩ := List.sorted_cons.mp ascending
      show insertZeroBits as (insertZeroBit a (removeBit a (removeBits as x))) = x
      rw [insertZeroBit_removeBit (by rw [testBit_removeBits_of_lt above]; exact clear a (List.mem_cons_self a as)),
        ih ascending fun b mem => clear b (List.mem_cons_of_mem a mem)]

theorem insertZeroBits_lt {w : Nat} (small : x < 2 ^ w) : insertZeroBits as x < 2 ^ (w + as.length) := by
  induction as generalizing x w with
  | nil => exact small
  | cons a as ih =>
      show insertZeroBits as (insertZeroBit a x) < _
      rw [List.length_cons, ← Nat.add_assoc, Nat.add_right_comm]
      exact ih (insertZeroBit_lt small)

end SkipLists

/-- The skip-power re-insertion of `UniformlyControlledSingleBit`, for strictly ascending skip powers
`2^a` below `2^(C+k)` and an offset below `2^C`: the result is below `2^(C+k)`, has every skip bit clear,
and its other bits, read from low to high, spell the offset (it is `pdep(offset, ~skipBits)`); it is the
only number with those properties; and with any value mask of skip bits or-ed in, the four payload
entries it selects lie inside an array of `4·2^(C+k)`. -/
theorem depositSkips_deposits (C : Nat) (as : List Nat) (ascending : as.Sorted (· < ·))
    (fits : ∀ a ∈ as, a < C + as.length) (offset : Nat) (small : offset < 2 ^ C) :
    (depositSkips (as.map (2 ^ ·)) offset < 2 ^ (C + as.length) ∧
      (∀ a ∈ as, depositSkips (as.map (2 ^ ·)) offset &&& 2 ^ a = 0) ∧
      removeBits as (depositSkips (as.map (2 ^ ·)) offset) = offset) ∧
    (∀ i', (∀ a ∈ as, i' &&& 2 ^ a = 0) → removeBits as i' = offset → i' = depositSkips (as.map (2 ^ ·)) offset) ∧
    ∀ v, (∀ j, v.testBit j = true → j ∈ as) →
      (depositSkips (as.map (2 ^ ·)) offset ||| v) * 4 + 3 < 4 * 2 ^ (C + as.length) := by
  set i := depositSkips (as.map (2 ^ ·)) offset
  have deposit : i = insertZeroBits as offset := depositSkips_eq_insertZeroBits as ascending offset
  have bound : i < 2 ^ (C + as.length) := deposit ▸ insertZeroBits_lt small
  refine ⟨⟨bound, fun a mem => ?_, by rw [deposit, removeBits_insertZeroBits]⟩, fun i' clear spells => ?_,
    fun v skips => ?_⟩
  · rw [and_two_pow_eq_zero, deposit]
    exact testBit_insertZeroBits_skip ascending mem
  · rw [deposit, ← spells, insertZeroBits_removeBits ascending fun a mem => (and_two_pow_eq_zero i' a).mp (clear a mem)]
  · have skipBound : v < 2 ^ (C + as.length) := Nat.lt_pow_two_of_testBit _ fun j above => by
      by_contra set
      exact absurd (fits j (skips j (Bool.not_eq_false _ ▸ set))) (Nat.not_lt.mpr above)
    have joined := Nat.or_lt_two_pow bound skipBound
    omega

theorem depositSkips_deposits_one_skip :
    ([1].Sorted (· < ·) ∧ (∀ a ∈ [1], a < 1 + [1].length) ∧ 1 < 2 ^ 1) ∧
    (depositSkips ([1].map (2 ^ ·)) 1 < 2 ^ (1 + [1].length) ∧
      (∀ a ∈ [1], depositSkips ([1].map (2 ^ ·)) 1 &&& 2 ^ a = 0) ∧
      removeBits [1] (depositSkips ([1].map (2 ^ ·)) 1) = 1) ∧
    (∀ i', (∀ a ∈ [1], i' &&& 2 ^ a = 0) → removeBits [1] i' = 1 → i' = depositSkips ([1].map (2 ^ ·)) 1) ∧
    ∀ v, (∀ j, v.testBit j = true → j ∈ [1]) →
      (depositSkips ([1].map (2 ^ ·)) 1 ||| v) * 4 + 3 < 4 * 2 ^ (1 + [1].length) :=
  ⟨⟨List.sorted_singleton 1, by decide, by decide⟩, depositSkips_deposits 1 [1] (List.sorted_singleton 1) (by decide) 1
    (by decide)⟩

variable (cfg : Config) (sched : Schedule)

/-- Modelled from the spec: the scale a pending normalisation should contribute, `1/√runningNorm` when the
engine normalises, the cached norm is known and positive, and `|1 - 1/√runningNorm| > FP_NORM_EPSILON`. -/
def expectedScale (e : QEngineCPU) : ℝ :=
  if e.doNormalize ∧ 0 < e.runningNorm ∧ cfg.fpNormEpsilon < |1 - 1 / Real.sqrt e.runningNorm| then
    1 / Real.sqrt e.runningNorm
  else 1

theorem ucsbScale_eq_expectedScale (e : QEngineCPU) (big : 1 ≤ e.runningNorm) :
    (ucsbScale cfg e).getD 1 = expectedScale cfg e := by
  have positive : 0 < e.runningNorm := lt_of_lt_of_le one_pos big
  have small : 1 / Real.sqrt e.runningNorm ≤ 1 := by
    rw [div_le_one (Real.sqrt_pos.mpr positive)]
    exact Real.one_le_sqrt.mpr big
  simp only [ucsbScale, expectedScale, if_pos positive, abs_of_nonneg (sub_nonneg.mpr small), positive, true_and]
  split_ifs <;> rfl

theorem uniformlyControlledSingleBit_pairs (e : QEngineCPU) (v : StateVector) (store : e.stateVec = some v)
    (controls : List Nat) (nonempty : controls ≠ []) (qubitIndex : Nat) (target : qubitIndex < e.qubitCount)
    (valid : qbIdArrayIsBad controls e.qubitCount = false) (mtrxs : Nat → ℂ) (as : List Nat)
    (ascending : as.Sorted (· < ·)) (skipValueMask : Nat) :
    ∃ w, e.uniformlyControlledSingleBit cfg sched controls qubitIndex mtrxs (as.map (2 ^ ·)) skipValueMask =
        .ok { e with stateVec := some w, runningNorm := if e.doNormalize then 1 else e.runningNorm } ∧
      ∀ lcv < e.maxQPowerOcl, lcv.testBit qubitIndex = false →
        let m := insertZeroBits as (controlValue controls lcv) ||| skipValueMask
        let s : ℂ := ((ucsbScale cfg e).getD 1 : ℝ)
        w.amp lcv = s * (mtrxs (4 * m) * v.amp lcv + mtrxs (4 * m + 1) * v.amp (lcv ||| 2 ^ qubitIndex)) ∧
          w.amp (lcv ||| 2 ^ qubitIndex) =
            s * (mtrxs (4 * m + 2) * v.amp lcv + mtrxs (4 * m + 3) * v.amp (lcv ||| 2 ^ qubitIndex)) := by
  refine ⟨_, uniformlyControlledSingleBit_eq cfg sched controls qubitIndex mtrxs _ skipValueMask e v store nonempty
    target valid, fun lcv bound clear => ?_⟩
  obtain ⟨lo, hi⟩ := ucsbLoop_pair cfg controls qubitIndex mtrxs _ skipValueMask e v lcv bound clear
  rw [lo, hi]
  simp only [ucsbPair, packControls_eq_controlValue, depositSkips_eq_insertZeroBits as ascending]
  generalize insertZeroBits as (controlValue controls lcv) ||| skipValueMask = m
  rw [Nat.mul_comm m 4, Nat.add_comm 1, Nat.add_comm 2, Nat.add_comm 3]
  cases ucsbScale cfg e <;> simp

/-- An engine that normalises with a known cached norm `r` in `(0, 1)` and `|1 - 1/√r| > FP_NORM_EPSILON`: the
expected scale is `1/√r ≠ 1`, yet `ONE_R1 - nrm` is negative, so every pair gets the bare matrix, and every
nonzero result differs from the scaled one the spec expects. -/
theorem uniformlyControlledSingleBit_skips_scale_below_one (e : QEngineCPU) (v : StateVector)
    (store : e.stateVec = some v) (controls : List Nat) (nonempty : controls ≠ []) (qubitIndex : Nat)
    (target : qubitIndex < e.qubitCount) (valid : qbIdArrayIsBad controls e.qubitCount = false) (mtrxs : Nat → ℂ)
    (as : List Nat) (ascending : as.Sorted (· < ·)) (skipValueMask : Nat) (normalizing : e.doNormalize = true)
    (positive : 0 < e.runningNorm) (below : e.runningNorm < 1)
    (far : cfg.fpNormEpsilon < |1 - 1 / Real.sqrt e.runningNorm|) :
    expectedScale cfg e ≠ 1 ∧
      ∃ w, e.uniformlyControlledSingleBit cfg sched controls qubitIndex mtrxs (as.map (2 ^ ·)) skipValueMask =
          .ok { e with stateVec := some w, runningNorm := 1 } ∧
        ∀ lcv < e.maxQPowerOcl, lcv.testBit qubitIndex = false →
          let m := insertZeroBits as (controlValue controls lcv) ||| skipValueMask
          let y0 := mtrxs (4 * m) * v.amp lcv + mtrxs (4 * m + 1) * v.amp (lcv ||| 2 ^ qubitIndex)
          let y1 := mtrxs (4 * m + 2) * v.amp lcv + mtrxs (4 * m + 3) * v.amp (lcv ||| 2 ^ qubitIndex)
          w.amp lcv = y0 ∧ w.amp (lcv ||| 2 ^ qubitIndex) = y1 ∧ (y0 ≠ 0 → w.amp lcv ≠ (expectedScale cfg e : ℂ) * y0) := by
  have expected : expectedScale cfg e = 1 / Real.sqrt e.runningNorm := if_pos ⟨normalizing, positive, far⟩
  have grows : 1 < 1 / Real.sqrt e.runningNorm := by
    rw [one_lt_div (Real.sqrt_pos.mpr positive)]
    exact (Real.sqrt_lt' one_pos).mpr (by rwa [one_pow])
  obtain ⟨w, call, pairs⟩ :=
    uniformlyControlledSingleBit_pairs cfg sched e v store controls nonempty qubitIndex target valid mtrxs as ascending
      skipValueMask
  refine ⟨expected ▸ grows.ne', w, by simpa [normalizing] using call, fun lcv bound clear => ?_⟩
  obtain ⟨lo, hi⟩ := pairs lcv bound clear
  simp only [ucsbScale_eq_none cfg e below.le, Option.getD_none, Complex.ofReal_one, one_mul] at lo hi
  refine ⟨lo, hi, fun nonzero same => ?_⟩
  rw [lo, expected] at same
  have one : ((1 / Real.sqrt e.runningNorm : ℝ) : ℂ) = 1 := mul_right_cancel₀ nonzero (by rw [one_mul]; exact same.symm)
  exact grows.ne' (Complex.ofReal_eq_one.mp one)

theorem uniformlyControlledSingleBit_skips_scale_below_one_example :
    let e : QEngineCPU := ⟨2, some ((StateVector.alloc 4).write 0 1), 1 / 4, true, false, 0⟩
    (e.stateVec = some ((StateVector.alloc 4).write 0 1) ∧ [1] ≠ [] ∧ 0 < e.qubitCount ∧
      qbIdArrayIsBad [1] e.qubitCount = false ∧ ([] : List Nat).Sorted (· < ·) ∧ e.doNormalize = true ∧
      0 < e.runningNorm ∧ e.runningNorm < 1 ∧ exampleConfig.fpNormEpsilon < |1 - 1 / Real.sqrt e.runningNorm|) ∧
    expectedScale exampleConfig e ≠ 1 ∧
      ∃ w, e.uniformlyControlledSingleBit exampleConfig oneWorker [1] 0 identityMtrxs (([] : List Nat).map (2 ^ ·)) 0 =
          .ok { e with stateVec := some w, runningNorm := 1 } ∧
        ∀ lcv < e.maxQPowerOcl, lcv.testBit 0 = false →
          let m := insertZeroBits [] (controlValue [1] lcv) ||| 0
          let y0 := identityMtrxs (4 * m) * ((StateVector.alloc 4).write 0 1).amp lcv +
            identityMtrxs (4 * m + 1) * ((StateVector.alloc 4).write 0 1).amp (lcv ||| 2 ^ 0)
          let y1 := identityMtrxs (4 * m + 2) * ((StateVector.alloc 4).write 0 1).amp lcv +
            identityMtrxs (4 * m + 3) * ((StateVector.alloc 4).write 0 1).amp (lcv ||| 2 ^ 0)
          w.amp lcv = y0 ∧ w.amp (lcv ||| 2 ^ 0) = y1 ∧ (y0 ≠ 0 → w.amp lcv ≠ (expectedScale exampleConfig e : ℂ) * y0) :=
  have root : Real.sqrt (1 / 4) = 1 / 2 := by
    rw [show (1 / 4 : ℝ) = (1 / 2) ^ 2 by norm_num]
    exact Real.sqrt_sq (by norm_num)
  have far : exampleConfig.fpNormEpsilon < |1 - 1 / Real.sqrt (1 / 4)| := by
    rw [root]
    norm_num [exampleConfig]
  ⟨⟨rfl, List.cons_ne_nil 1 [], by decide, by decide, List.sorted_nil, rfl, by norm_num, by norm_num, far⟩,
    uniformlyControlledSingleBit_skips_scale_below_one exampleConfig oneWorker
      ⟨2, some ((StateVector.alloc 4).write 0 1), 1 / 4, true, false, 0⟩ _ rfl [1] (List.cons_ne_nil 1 []) 0
      (by decide) (by decide) identityMtrxs [] List.sorted_nil 0 rfl (by norm_num) (by norm_num) far⟩

end

end Qrack
