import Qrack.RoundTrip

set_option autoImplicit false

/- `Compose(toCopy, start)` as a tensor product. The kernel's split of an index into remainder and part and
   the join `DecomposeDispose` and `Dispose(start, length, disposedPerm)` read with are inverse bijections
   between `[0, 2^(N+M))` and `[0, 2^N) × [0, 2^M)`. When both stores survive the normalisation the call
   makes, the new amplitude at each index is the product of the two amplitudes its split names; the append
   overload is the case `start = N`. The null check comes before the normalisation, so a store that the
   normalisation releases is then read. -/

namespace Qrack

noncomputable section

theorem composeAt_end_mask_eq_zero (N M : Nat) :
    andNot (2 ^ (N + M) - 1) ((2 ^ N - 1) ||| ((2 ^ M - 1) <<< N)) = 0 := by
  apply Nat.eq_of_testBit_eq
  intro j
  simp only [testBit_andNot, Nat.testBit_two_pow_sub_one, Nat.testBit_or, Nat.testBit_shiftLeft, Nat.zero_testBit]
  by_cases low : j < N
  · simp [low]
  · by_cases top : j < N + M
    · simp [low, top, show N ≤ j by omega, show j - N < M by omega]
    · simp [top]

section Split

variable {N M start lcv : Nat}

theorem composeSplit_snd_lt : (composeSplit N M start lcv).2 < 2 ^ M :=
  Nat.lt_pow_two_of_testBit _ fun j above => by
    rw [testBit_composeSplit_snd, decide_eq_false (Nat.not_lt.mpr above), Bool.false_and]

theorem composeSplit_fst_lt (inside : start ≤ N) : (composeSplit N M start lcv).1 < 2 ^ N :=
  Nat.lt_pow_two_of_testBit _ fun j above => by
    rw [testBit_composeSplit_fst, if_neg (by omega), decide_eq_false (Nat.not_lt.mpr above), Bool.false_and]

theorem decomposeIndex_composeSplit (below : lcv < 2 ^ (N + M)) :
    decomposeIndex start M (composeSplit N M start lcv).1 (composeSplit N M start lcv).2 = lcv := by
  apply Nat.eq_of_testBit_eq
  intro j
  rw [testBit_decomposeIndex start M _ _ j composeSplit_snd_lt, testBit_composeSplit_fst, testBit_composeSplit_snd]
  by_cases low : j < start
  · rw [if_pos low, if_pos low]
  · by_cases mid : j < start + M
    · rw [if_neg low, if_pos mid, decide_eq_true (by omega), Bool.true_and, Nat.add_sub_cancel' (by omega)]
    · rw [if_neg low, if_neg mid, testBit_composeSplit_fst, if_neg (by omega), Nat.add_sub_cancel' (by omega)]
      by_cases top : j < N + M
      · rw [decide_eq_true (by omega), Bool.true_and]
      · rw [decide_eq_false (by omega), Bool.false_and,
          Nat.testBit_lt_two_pow (lt_of_lt_of_le below (Nat.pow_le_pow_right two_pos (Nat.not_lt.mp top)))]

end Split

variable (cfg : Config)

theorem composeAt_split_inverse_decomposeIndex (a b : QEngineCPU) (start : Nat) (inside : start ≤ a.qubitCount) :
    (∀ va vb va' vb' : StateVector, a.stateVec = some va → b.stateVec = some vb → 0 < a.qubitCount →
      0 < b.qubitCount → a.qubitCount + b.qubitCount ≤ cfg.maxCpuQb →
      (if a.doNormalize then a.normalize cfg else a).stateVec = some va' →
      (if b.doNormalize then b.normalize cfg else b).stateVec = some vb' →
      ∃ c, a.composeAt cfg b start = .ok (start, c, if b.doNormalize then b.normalize cfg else b) ∧
        c.qubitCount = a.qubitCount + b.qubitCount ∧
        ∀ lcv < 2 ^ (a.qubitCount + b.qubitCount), c.amplitude lcv =
          va'.amp (composeSplit a.qubitCount b.qubitCount start lcv).1 *
            vb'.amp (composeSplit a.qubitCount b.qubitCount start lcv).2) ∧
    (∀ lcv < 2 ^ (a.qubitCount + b.qubitCount),
      (composeSplit a.qubitCount b.qubitCount start lcv).1 < 2 ^ a.qubitCount ∧
      (composeSplit a.qubitCount b.qubitCount start lcv).2 < 2 ^ b.qubitCount ∧
      decomposeIndex start b.qubitCount (composeSplit a.qubitCount b.qubitCount start lcv).1
        (composeSplit a.qubitCount b.qubitCount start lcv).2 = lcv) ∧
    ∀ r < 2 ^ a.qubitCount, ∀ k < 2 ^ b.qubitCount,
      decomposeIndex start b.qubitCount r k < 2 ^ (a.qubitCount + b.qubitCount) ∧
      composeSplit a.qubitCount b.qubitCount start (decomposeIndex start b.qubitCount r k) = (r, k) := by
  refine ⟨fun va vb va' vb' storeA storeB qubitsA qubitsB room keptA keptB => ?_,
    fun _ below => ⟨composeSplit_fst_lt inside, composeSplit_snd_lt, decomposeIndex_composeSplit below⟩,
    fun _ hr _ hk => ⟨decomposeIndex_lt hr hk inside, composeSplit_decomposeIndex hr hk⟩⟩
  refine ⟨_, QEngineCPU.composeAt_eq_product cfg a b va vb start storeA storeB qubitsA qubitsB inside room va' vb'
    keptA keptB, rfl, fun lcv below => ?_⟩
  simp only [QEngineCPU.amplitude, StateVector.generate_amp, if_pos below]

theorem composeAt_split_inverse_decomposeIndex_middle :
    1 ≤ 2 ∧
    (∀ va vb va' vb' : StateVector, some (StateVector.alloc 4) = some va → some (StateVector.alloc 2) = some vb →
      0 < 2 → 0 < 1 → 2 + 1 ≤ exampleConfig.maxCpuQb →
      some (StateVector.alloc 4) = some va' → some (StateVector.alloc 2) = some vb' →
      ∃ c, (⟨2, some (StateVector.alloc 4), 1, false, false, 0⟩ : QEngineCPU).composeAt exampleConfig
          ⟨1, some (StateVector.alloc 2), 1, false, false, 0⟩ 1 = .ok (1, c, ⟨1, some (StateVector.alloc 2), 1, false, false, 0⟩) ∧
        c.qubitCount = 2 + 1 ∧
        ∀ lcv < 2 ^ (2 + 1), c.amplitude lcv = va'.amp (composeSplit 2 1 1 lcv).1 * vb'.amp (composeSplit 2 1 1 lcv).2) ∧
    (∀ lcv < 2 ^ (2 + 1), (composeSplit 2 1 1 lcv).1 < 2 ^ 2 ∧ (composeSplit 2 1 1 lcv).2 < 2 ^ 1 ∧
      decomposeIndex 1 1 (composeSplit 2 1 1 lcv).1 (composeSplit 2 1 1 lcv).2 = lcv) ∧
    ∀ r < 2 ^ 2, ∀ k < 2 ^ 1, decomposeIndex 1 1 r k < 2 ^ (2 + 1) ∧ composeSplit 2 1 1 (decomposeIndex 1 1 r k) = (r, k) :=
  ⟨by decide, composeAt_split_inverse_decomposeIndex exampleConfig ⟨2, some (StateVector.alloc 4), 1, false, false, 0⟩
    ⟨1, some (StateVector.alloc 2), 1, false, false, 0⟩ 1 (by decide)⟩

/-- An engine that normalises and was never given a store, after `SetQuantumState` of the zero vector:
its store is present, so `Compose(B, start)` passes the null check, then its normalisation finds norm 0,
releases the store, and the product reads it. -/
theorem composeAt_reads_released_store (a b : QEngineCPU) (vb : StateVector) (storeB : b.stateVec = some vb)
    (start : Nat) (qubitsA : 0 < a.qubitCount) (qubitsB : 0 < b.qubitCount) (inside : start ≤ a.qubitCount)
    (room : a.qubitCount + b.qubitCount ≤ cfg.maxCpuQb) :
    let A := QEngineCPU.setQuantumState cfg (fun _ => 0) { a with stateVec := none, doNormalize := true }
    A.stateVec.isSome ∧ A.composeAt cfg b start = .error .nullStateVec := by
  intro A
  have eps := cfg.fpNormEpsilon_pos
  have zero : ∀ thresh, parNorm (2 ^ a.qubitCount) ((StateVector.alloc (2 ^ a.qubitCount)).copyIn fun _ => 0) thresh = 0 :=
    fun thresh => by simp [parNorm, StateVector.copyIn]
  have released : (A.normalize cfg).stateVec = none := by
    simp [A, QEngineCPU.normalize, QEngineCPU.normalizeState, QEngineCPU.setQuantumState, QEngineCPU.allocatedStateVec,
      QEngineCPU.updateRunningNorm, QEngineCPU.maxQPowerOcl, zero, eps.le, cfg.defaultArg_neg, QEngineCPU.normalizeScale,
      QEngineCPU.zeroAmplitudes]
  have count : A.qubitCount = a.qubitCount := rfl
  have present : A.stateVec.isNone = false := rfl
  have normalizing : A.doNormalize = true := rfl
  refine ⟨rfl, ?_⟩
  simp [QEngineCPU.composeAt, count, Nat.not_lt.mpr inside, qubitsA.ne', qubitsB.ne', Nat.not_lt.mpr room, storeB,
    present, normalizing, released]

theorem composeAt_reads_released_store_example :
    ((⟨1, some ((StateVector.alloc 2).write 0 1), 1, false, false, 0⟩ : QEngineCPU).stateVec =
        some ((StateVector.alloc 2).write 0 1) ∧ 0 < 1 ∧ 0 < 1 ∧ 0 ≤ 1 ∧ 1 + 1 ≤ exampleConfig.maxCpuQb) ∧
      (QEngineCPU.setQuantumState exampleConfig (fun _ => 0)
          { (⟨1, none, 0, false, false, 0⟩ : QEngineCPU) with stateVec := none, doNormalize := true }).stateVec.isSome ∧
      (QEngineCPU.setQuantumState exampleConfig (fun _ => 0)
          { (⟨1, none, 0, false, false, 0⟩ : QEngineCPU) with stateVec := none, doNormalize := true }).composeAt
        exampleConfig ⟨1, some ((StateVector.alloc 2).write 0 1), 1, false, false, 0⟩ 0 = .error .nullStateVec :=
  ⟨⟨rfl, Nat.one_pos, Nat.one_pos, Nat.zero_le 1, by decide⟩, composeAt_reads_released_store exampleConfig
    ⟨1, none, 0, false, false, 0⟩ ⟨1, some ((StateVector.alloc 2).write 0 1), 1, false, false, 0⟩ _ rfl 0 Nat.one_pos
    Nat.one_pos (Nat.zero_le 1) (by decide)⟩

/-- With `FP_NORM_EPSILON < 1`, `Compose(B)` is `Compose(B, N)`: the same result, engine and copy. -/
theorem compose_eq_composeAt_end (small : cfg.fpNormEpsilon < 1) (a b : QEngineCPU) :
    a.compose cfg b = a.composeAt cfg b a.qubitCount := by
  have sameCopy : (if b.doNormalize ∧ b.runningNorm ≠ 1 then b.normalize cfg else b) =
      if b.doNormalize then b.normalize cfg else b := by
    by_cases one : b.runningNorm = 1
    · simp [one, QEngineCPU.normalize_of_runningNorm_one cfg small b one]
    · simp [one]
  unfold QEngineCPU.composeAt
  by_cases zeroA : a.qubitCount = 0
  · simp only [lt_irrefl, if_false, zeroA, if_true]
    unfold QEngineCPU.compose
    by_cases zeroB : b.qubitCount = 0
    · simp [Except.map, zeroA, zeroB]
    · by_cases full : cfg.maxCpuQb < b.qubitCount <;> simp [Except.map, zeroA, zeroB, full]
  · by_cases zeroB : b.qubitCount = 0
    · simp [QEngineCPU.compose, zeroA, zeroB]
    · simp only [QEngineCPU.compose, composeSplit, zeroA, zeroB, lt_irrefl, if_false, sameCopy, QEngineCPU.maxQPowerOcl,
        composeAt_end_mask_eq_zero, Nat.and_zero, Nat.zero_shiftRight, Nat.or_zero, apply_ite QEngineCPU.qubitCount,
        QEngineCPU.normalize_qubitCount, ite_self]

theorem compose_eq_composeAt_end_pair :
    exampleConfig.fpNormEpsilon < 1 ∧
    (⟨1, some ((StateVector.alloc 2).write 1 1), 1, true, false, 0⟩ : QEngineCPU).compose exampleConfig
        ⟨1, some ((StateVector.alloc 2).write 0 1), 1, true, false, 0⟩ =
      (⟨1, some ((StateVector.alloc 2).write 1 1), 1, true, false, 0⟩ : QEngineCPU).composeAt exampleConfig
        ⟨1, some ((StateVector.alloc 2).write 0 1), 1, true, false, 0⟩ 1 :=
  have small : exampleConfig.fpNormEpsilon < 1 := exampleConfig_small
  ⟨small, compose_eq_composeAt_end exampleConfig small ⟨1, some ((StateVector.alloc 2).write 1 1), 1, true, false, 0⟩
    ⟨1, some ((StateVector.alloc 2).write 0 1), 1, true, false, 0⟩⟩

end

end Qrack
