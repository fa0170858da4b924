import Qrack.Compose

set_option autoImplicit false

namespace Qrack

def decomposeIndex (start length r k : Nat) : Nat :=
  (r &&& (2 ^ start - 1)) ||| ((r ^^^ (r &&& (2 ^ start - 1))) <<< length) ||| (k <<< start)

noncomputable section

structure ReducedState where
  prob : Nat → ℝ
  angle : Nat → ℝ

-- The probability-and-angle pass over one side. `amp i j` is the amplitude of permutation `i` of this side with
-- permutation `j` of the other side, which has `otherPower` permutations.
def reduce (amplitudeFloor : ℝ) (otherPower : Nat) (amp : Nat → Nat → ℂ) : ReducedState :=
  let prob i := ∑ j ∈ Finset.range otherPower, Complex.normSq (amp i j)
  let angleSum i := ∑ j ∈ Finset.range otherPower,
    if amplitudeFloor < Complex.normSq (amp i j) then (amp i j).arg * Complex.normSq (amp i j) else 0
  ⟨prob, fun i => if amplitudeFloor < prob i then angleSum i / prob i else angleSum i⟩

def ReducedState.amplitude (s : ReducedState) (i : Nat) : ℂ := polar (Real.sqrt (s.prob i)) (s.angle i)

namespace QEngineCPU

variable (cfg : Config)

-- `DecomposeDispose(start, length, destination)`. A destination without a store is first reset by
-- `SetPermutation(0)`, which draws `rand` for its phase; every amplitude it holds is then overwritten.
def decomposeDispose (start length : Nat) (rand : ℝ) (destination : Option QEngineCPU) (e : QEngineCPU) :
    Except Fault (QEngineCPU × Option QEngineCPU) :=
  if e.qubitCount < start + length then
    .error (.invalidArgument "QEngineCPU::DecomposeDispose range is out-of-bounds!")
  else if length = 0 then .ok (e, destination)
  else
    let nLength := e.qubitCount - length
    match e.stateVec with
    | none => .ok ({ e with qubitCount := nLength }, destination.map zeroAmplitudes)
    | some v =>
      if nLength = 0 then
        .ok ({ e with stateVec := none, qubitCount := 0 }, destination.map fun d => { d with stateVec := some v })
      else
        let destination := destination.map fun d =>
          if d.stateVec.isNone then d.setPermutation 0 none rand else d
        let e := if e.doNormalize then e.normalize cfg else e
        match e.stateVec with
        | none => .error .nullStateVec
        | some v =>
          let remainder := reduce e.amplitudeFloor (2 ^ length) fun r k => v.amp (decomposeIndex start length r k)
          let part := reduce e.amplitudeFloor (2 ^ nLength) fun k r => v.amp (decomposeIndex start length r k)
          match destination.map stateVec with
          | some none => .error .nullStateVec
          | _ =>
            .ok ({ e with
                qubitCount := nLength
                stateVec := some (StateVector.generate (2 ^ nLength) remainder.amplitude) },
              destination.map fun d => { d with
                stateVec := d.stateVec.map fun w => w.mapBelow (2 ^ length) fun k _ => part.amplitude k })

def decompose (e destination : QEngineCPU) (start : Nat) (rand : ℝ) : Except Fault (QEngineCPU × QEngineCPU) :=
  (e.decomposeDispose cfg start destination.qubitCount rand (some destination)).map
    fun r => (r.1, r.2.getD destination)

theorem decompose_eq_reduce (e d : QEngineCPU) (v : StateVector) (start : Nat) (rand : ℝ)
    (inside : start + d.qubitCount ≤ e.qubitCount) (positive : 0 < d.qubitCount) (rest : d.qubitCount < e.qubitCount)
    (store : e.stateVec = some v) (keep : (if e.doNormalize then e.normalize cfg else e) = e) (u : StateVector)
    (storeD : (if d.stateVec.isNone then d.setPermutation 0 none rand else d).stateVec = some u) :
    e.decompose cfg d start rand = .ok ({ e with
        qubitCount := e.qubitCount - d.qubitCount
        stateVec := some (StateVector.generate (2 ^ (e.qubitCount - d.qubitCount)) (reduce e.amplitudeFloor
          (2 ^ d.qubitCount) fun r k => v.amp (decomposeIndex start d.qubitCount r k)).amplitude) },
      { (if d.stateVec.isNone then d.setPermutation 0 none rand else d) with
        stateVec := some (u.mapBelow (2 ^ d.qubitCount) fun k _ => (reduce e.amplitudeFloor
          (2 ^ (e.qubitCount - d.qubitCount)) fun k r => v.amp (decomposeIndex start d.qubitCount r k)).amplitude k) }) := by
  rw [decompose, decomposeDispose, if_neg (Nat.not_lt.mpr inside), if_neg positive.ne', store]
  dsimp only
  rw [if_neg (by omega), keep, store]
  simp only [Option.map_some', storeD]
  rfl

def dispose (start length : Nat) (e : QEngineCPU) : Except Fault QEngineCPU :=
  (e.decomposeDispose cfg start length 0 none).map Prod.fst

def disposedStore (start length disposedPerm nLength : Nat) (v : StateVector) : StateVector :=
  StateVector.generate (2 ^ nLength) fun iHigh => v.amp (decomposeIndex start length iHigh disposedPerm)

-- `Dispose(start, length, disposedPerm)`: drop the qubits, known to hold `disposedPerm`, by copying the amplitudes
-- with those bits. A full-range dispose leaves a one-qubit count over a one-amplitude store.
def disposePerm (start length disposedPerm : Nat) (e : QEngineCPU) : Except Fault QEngineCPU :=
  if e.qubitCount < start + length then .error (.invalidArgument "QEngineCPU::Dispose range is out-of-bounds!")
  else if length = 0 then .ok e
  else
    let nLength := e.qubitCount - length
    match e.stateVec with
    | none => .ok { e with qubitCount := nLength }
    | some _ =>
      let e := if e.doNormalize then e.normalize cfg else e
      match e.stateVec with
      | none => .error .nullStateVec
      | some v =>
        .ok { e with
          qubitCount := if nLength = 0 then 1 else nLength
          stateVec := some (disposedStore start length disposedPerm nLength v) }

end QEngineCPU

end

end Qrack
