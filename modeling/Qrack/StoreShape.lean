import Qrack.Decompose

set_option autoImplicit false

namespace Qrack

noncomputable section

def StoreShaped (cfg : Config) (e : QEngineCPU) : Prop :=
  e.qubitCount ≤ cfg.maxCpuQb ∧ ∀ v, e.stateVec = some v → v.size = e.maxQPowerOcl

variable (cfg : Config)

theorem setQuantumState_shaped (e : QEngineCPU) (shaped : StoreShaped cfg e) (inputState : Nat → ℂ) :
    StoreShaped cfg (e.setQuantumState cfg inputState) := by
  refine ⟨shaped.1, fun v store => ?_⟩
  simp only [QEngineCPU.setQuantumState, Option.some.injEq] at store
  subst store
  cases present : e.stateVec with
  | none => simp [QEngineCPU.setQuantumState, QEngineCPU.allocatedStateVec, present, QEngineCPU.maxQPowerOcl,
      StateVector.copyIn]
  | some w => simpa [QEngineCPU.setQuantumState, QEngineCPU.allocatedStateVec, present, QEngineCPU.maxQPowerOcl,
      StateVector.copyIn] using shaped.2 w present

/-- A full-range `Dispose(0, N, disposedPerm)` of a well-shaped engine sets the qubit count to 1
over a store of one amplitude. -/
theorem disposePerm_full_range_breaks_shape (e : QEngineCPU) (v : StateVector) (k perm : Nat)
    (bound : k + 1 ≤ cfg.maxCpuQb) (size : v.size = 2 ^ (k + 1)) :
    let e0 := { e with qubitCount := k + 1, stateVec := some v, doNormalize := false }
    StoreShaped cfg e0 ∧
      ∃ e1, e0.disposePerm cfg 0 (k + 1) perm = .ok e1 ∧ e1.qubitCount = 1 ∧ ¬ StoreShaped cfg e1 := by
  intro e0
  have run : e0.disposePerm cfg 0 (k + 1) perm =
      .ok { e0 with qubitCount := 1, stateVec := some (QEngineCPU.disposedStore 0 (k + 1) perm 0 v) } := by
    simp [e0, QEngineCPU.disposePerm]
  refine ⟨⟨bound, fun w store => ?_⟩, _, run, rfl, ?_⟩
  · simp_all [e0, QEngineCPU.maxQPowerOcl]
  · rintro ⟨-, sized⟩
    have := sized _ rfl
    simp [QEngineCPU.disposedStore, QEngineCPU.maxQPowerOcl] at this

theorem disposePerm_full_range_breaks_shape_example :
    1 ≤ exampleConfig.maxCpuQb ∧ (StateVector.alloc 2).size = 2 ^ 1 ∧
    (StoreShaped exampleConfig { (⟨0, none, 0, false, false, 0⟩ : QEngineCPU) with
        qubitCount := 1, stateVec := some (StateVector.alloc 2), doNormalize := false } ∧
      ∃ e1, ({ (⟨0, none, 0, false, false, 0⟩ : QEngineCPU) with
          qubitCount := 1, stateVec := some (StateVector.alloc 2), doNormalize := false }).disposePerm
          exampleConfig 0 1 0 = .ok e1 ∧ e1.qubitCount = 1 ∧ ¬ StoreShaped exampleConfig e1) :=
  have bound : 1 ≤ exampleConfig.maxCpuQb := by decide
  ⟨bound, rfl, disposePerm_full_range_breaks_shape exampleConfig _ (StateVector.alloc 2) 0 0 bound rfl⟩

/-- The vector overload of `Compose` appends past `QRACK_MAX_CPU_QB` where `Compose(toCopy)` raises. -/
theorem composeAll_skips_capacity_check (a b : QEngineCPU) (va vb : StateVector) (k : Nat) :
    let A := { a with qubitCount := cfg.maxCpuQb, stateVec := some va, doNormalize := false }
    let B := { b with qubitCount := k + 1, stateVec := some vb, doNormalize := false }
    A.compose cfg B = .error (.invalidArgument QEngineCPU.capacityMessage) ∧
      ∃ r, A.composeAll cfg [B] = .ok r ∧ r.2.1.qubitCount = cfg.maxCpuQb + (k + 1) := by
  intro A B
  constructor
  · have over : cfg.maxCpuQb < cfg.maxCpuQb + (k + 1) := by omega
    simp [A, B, QEngineCPU.compose, over]
  · exact ⟨_, rfl, by simp [A, B]⟩

end

end Qrack
