import Qrack.RoundTrip

set_option autoImplicit false

/- The two ways to drop qubits. `Dispose(start, length, disposedPerm)` copies the amplitudes whose dropped
   bits spell `disposedPerm`; `Dispose(start, length)` runs `DecomposeDispose` with no destination and
   rebuilds each remaining amplitude from its probability and mean phase. On a state supported on one value
   of the dropped bits the rebuilt amplitude is the copied one, so the two agree whenever a qubit remains.
   When every qubit is dropped they do not: the fast path keeps a one-qubit count. -/

namespace Qrack

noncomputable section

theorem decomposeIndex_part (start len r k : Nat) (hk : k < 2 ^ len) :
    (decomposeIndex start len r k >>> start) % 2 ^ len = k := by
  apply Nat.eq_of_testBit_eq
  intro j
  rw [Nat.testBit_mod_two_pow, Nat.testBit_shiftRight, testBit_decomposeIndex start len r k _ hk]
  by_cases inPart : j < len
  · simp [inPart]
  · have kHigh := Nat.testBit_eq_false_of_lt (lt_of_lt_of_le hk (Nat.pow_le_pow_right (by norm_num) (Nat.le_of_not_lt inPart)))
    simp [inPart, kHigh]

theorem reduce_amplitude_single (n : Nat) (amp : Nat → Nat → ℂ) (i k : Nat) (hk : k < n)
    (only : ∀ j < n, j ≠ k → amp i j = 0) : (reduce 0 n amp).amplitude i = amp i k := by
  have mem := Finset.mem_range.mpr hk
  have prob : ∑ j ∈ Finset.range n, Complex.normSq (amp i j) = Complex.normSq (amp i k) :=
    Finset.sum_eq_single k (fun j inRange other => by rw [only j (Finset.mem_range.mp inRange) other, Complex.normSq_zero])
      fun out => absurd mem out
  have angle : (∑ j ∈ Finset.range n,
        if 0 < Complex.normSq (amp i j) then (amp i j).arg * Complex.normSq (amp i j) else 0) =
      if 0 < Complex.normSq (amp i k) then (amp i k).arg * Complex.normSq (amp i k) else 0 :=
    Finset.sum_eq_single k (fun j inRange other => by
      rw [only j (Finset.mem_range.mp inRange) other, Complex.normSq_zero, if_neg (lt_irrefl 0)]) fun out => absurd mem out
  simp only [ReducedState.amplitude, reduce, prob, angle]
  by_cases zero : amp i k = 0
  · simp only [zero, Complex.normSq_zero, lt_irrefl, if_false, Real.sqrt_zero, polar, zero_mul]
    rfl
  · have pos := Complex.normSq_pos.mpr zero
    have turned := polar_abs_arg_add (amp i k) 0
    have unit : polar 1 0 = 1 := Complex.ext (by simp [polar]) (by simp [polar])
    rw [if_pos pos, if_pos pos, mul_div_cancel_right₀ _ pos.ne', ← Complex.abs_apply]
    rwa [add_zero, unit, mul_one] at turned

variable (cfg : Config)

theorem disposePerm_agrees_with_dispose (e : QEngineCPU) (v : StateVector) (store : e.stateVec = some v)
    (floor : e.amplitudeFloor = 0) (start length perm : Nat) (positive : 0 < length)
    (inside : start + length < e.qubitCount) (small : perm < 2 ^ length)
    (supported : ∀ i < 2 ^ e.qubitCount, (i >>> start) % 2 ^ length ≠ perm → v.amp i = 0) :
    (e.disposePerm cfg start length perm).map (fun e => (e.qubitCount, e.amplitude)) =
      (e.dispose cfg start length).map (fun e => (e.qubitCount, e.amplitude)) := by
  have remaining : e.qubitCount - length ≠ 0 := by omega
  simp only [QEngineCPU.disposePerm, QEngineCPU.dispose, QEngineCPU.decomposeDispose, Nat.not_lt.mpr inside.le,
    positive.ne', if_false, store, remaining, Option.map_none']
  set normalized := if e.doNormalize then e.normalize cfg else e with unfolded
  have kept : ∀ w, normalized.stateVec = some w → ∀ i < 2 ^ e.qubitCount,
      (i >>> start) % 2 ^ length ≠ perm → w.amp i = 0 := by
    intro w after i below other
    by_cases normalizing : e.doNormalize
    · simp only [unfolded, normalizing, if_true] at after
      exact QEngineCPU.normalize_keeps_zero cfg e i (fun u same => by
        cases store.symm.trans same; exact supported i below other) w after
    · simp only [unfolded, normalizing, Bool.false_eq_true, if_false, store, Option.some.injEq] at after
      exact after ▸ supported i below other
  have bound : ∀ r < 2 ^ (e.qubitCount - length), ∀ k < 2 ^ length,
      decomposeIndex start length r k < 2 ^ e.qubitCount := fun r hr k hk => by
    have fits := @decomposeIndex_lt start length (e.qubitCount - length) r k hr hk (by omega)
    rwa [Nat.sub_add_cancel (by omega)] at fits
  have sameFloor : normalized.amplitudeFloor = 0 := by
    by_cases normalizing : e.doNormalize <;> simp [unfolded, normalizing, floor]
  cases after : normalized.stateVec with
  | none => rfl
  | some w =>
      simp only [Except.map, sameFloor]
      congr 2
      funext i
      simp only [QEngineCPU.amplitude, QEngineCPU.disposedStore, StateVector.generate_amp]
      split
      · next below =>
          rw [reduce_amplitude_single _ _ i perm small fun j hj other => kept w after _ (bound i below j hj)
            (by rw [decomposeIndex_part _ _ _ _ hj]; exact other)]
      · rfl

/-- Dropping every qubit of an engine that does not normalise: the fast path keeps a one-qubit count
and the amplitude at `perm`, while `Dispose(0, N)` leaves no qubit and no store. -/
theorem disposePerm_full_range_disagrees_with_dispose (e : QEngineCPU) (v : StateVector) (store : e.stateVec = some v)
    (plain : e.doNormalize = false) (qubits : 0 < e.qubitCount) (perm : Nat) :
    (e.disposePerm cfg 0 e.qubitCount perm).map (fun e => (e.qubitCount, e.amplitude 0)) = .ok (1, v.amp perm) ∧
      (e.dispose cfg 0 e.qubitCount).map (fun e => (e.qubitCount, e.amplitude 0)) = .ok (0, 0) := by
  constructor
  · simp [QEngineCPU.disposePerm, store, plain, qubits.ne', QEngineCPU.disposedStore, StateVector.generate_amp,
      QEngineCPU.amplitude, Except.map, decomposeIndex]
  · simp [QEngineCPU.dispose, QEngineCPU.decomposeDispose, store, qubits.ne', QEngineCPU.amplitude, Except.map]

theorem disposePerm_full_range_disagrees_with_dispose_example :
    ((⟨1, some ((StateVector.alloc 2).write 0 1), 1, false, false, 0⟩ : QEngineCPU).stateVec =
        some ((StateVector.alloc 2).write 0 1) ∧
      (⟨1, some ((StateVector.alloc 2).write 0 1), 1, false, false, 0⟩ : QEngineCPU).doNormalize = false ∧ 0 < 1) ∧
    ((⟨1, some ((StateVector.alloc 2).write 0 1), 1, false, false, 0⟩ : QEngineCPU).disposePerm exampleConfig 0 1 0).map
        (fun e => (e.qubitCount, e.amplitude 0)) = .ok (1, ((StateVector.alloc 2).write 0 1).amp 0) ∧
      ((⟨1, some ((StateVector.alloc 2).write 0 1), 1, false, false, 0⟩ : QEngineCPU).dispose exampleConfig 0 1).map
        (fun e => (e.qubitCount, e.amplitude 0)) = .ok (0, 0) :=
  ⟨⟨rfl, rfl, Nat.one_pos⟩, disposePerm_full_range_disagrees_with_dispose exampleConfig
    ⟨1, some ((StateVector.alloc 2).write 0 1), 1, false, false, 0⟩ _ rfl rfl Nat.one_pos 0⟩

end

end Qrack
