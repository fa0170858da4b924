import Qrack.Measure
import Qrack.UniformlyControlled

set_option autoImplicit false

/- The parity rotations. `UniformParityRZ(mask, angle)` turns every amplitude by `e^{i angle}` when its
   index has odd parity on `mask` and by `e^{-i angle}` otherwise. `CUniformParityRZ(controls, mask, angle)`
   visits only the indices with every control set, and takes the parity of the index it was handed by
   `par_for_mask`, which has the control bits cleared. `PhaseParity(radians, mask)` reads the parity off an
   XOR fold of `lcv & mask`, with shifts from `4 * sizeof(bitCapIntOcl)` down to 1; on every word of that
   width the fold is the popcount parity, and `PhaseParity` is `UniformParityRZ` at half the angle.
   `PhaseRootNMask(n, mask)` turns each amplitude by `e^{-iπ pc / 2^(n-1)}`, `pc` the popcount of its index
   on the mask, while `2 ^ n` fits the index word; past the word its `pow2Ocl(n)` is a shift C++ leaves
   undefined. -/

namespace Qrack

noncomputable section

def parityPhase (angle : ℝ) (odd : Bool) : ℂ :=
  if odd then ⟨Real.cos angle, Real.sin angle⟩ else ⟨Real.cos angle, -Real.sin angle⟩

def uniformParityRZKernel (mask : Nat) (angle : ℝ) (e : QEngineCPU) : QEngineCPU :=
  match e.stateVec with
  | none => e -- a released store: the source closure dereferences the null stateVec here
  | some v => { e with stateVec := some (v.mapBelow e.maxQPowerOcl fun lcv amp =>
      amp * parityPhase angle (oddParity mask lcv)) }

def controlMask (controlPowers : List Nat) : Nat := controlPowers.foldl (· ||| ·) 0

def cUniformParityRZKernel (controls : List Nat) (mask : Nat) (angle : ℝ) (e : QEngineCPU) : QEngineCPU :=
  match e.stateVec with
  | none => e -- a released store: the source closure dereferences the null stateVec here
  | some v =>
      let controlPowers := controls.map (2 ^ ·)
      { e with stateVec := some ((parForMask e.maxQPowerOcl controlPowers).foldl
          (StateVector.mapStep (controlMask controlPowers ||| ·) fun lcv amp =>
            amp * parityPhase angle (oddParity mask lcv)) v) }

def xorFold (paritySize v : Nat) : Nat :=
  if _ : paritySize = 0 then v else xorFold (paritySize >>> 1) (v ^^^ v >>> paritySize)
termination_by paritySize
decreasing_by rw [Nat.shiftRight_one]; omega

def phaseParityKernel (wordBytes mask : Nat) (radians : ℝ) (e : QEngineCPU) : QEngineCPU :=
  match e.stateVec with
  | none => e -- a released store: the source closure dereferences the null stateVec here
  | some v =>
      let otherMask := (e.maxQPowerOcl - 1) ^^^ mask
      { e with stateVec := some ((List.range e.maxQPowerOcl).foldl
          (StateVector.mapStep (fun lcv => lcv &&& mask ||| lcv &&& otherMask) fun lcv amp =>
            parityPhase (radians / 2) (xorFold (4 * wordBytes) (lcv &&& mask) &&& 1 != 0) * amp) v) }

/-- Modelled from the spec: `pow2Ocl(p)`, the header helper `(bitCapIntOcl)1 << p`, is `2 ^ p` while
it fits the word of `8 * wordBytes` bits. A shift by the word width or more is undefined in C++:
`none`. -/
def pow2Ocl (wordBytes p : Nat) : Option Nat := if p < 8 * wordBytes then some (2 ^ p) else none

/-- Modelled from the spec: `ZMask(mask)`, which `PhaseRootNMask(1, mask)` calls, negates each
amplitude of the register whose index has odd parity on the mask. -/
def zMaskKernel (mask : Nat) (e : QEngineCPU) : QEngineCPU :=
  match e.stateVec with
  | none => e -- a released store: the source closure dereferences the null stateVec here
  | some v => { e with stateVec := some (v.mapBelow e.maxQPowerOcl fun lcv amp =>
      if oddParity mask lcv then -amp else amp) }

def phaseRootNMaskKernel (mask nPhases : Nat) (radians : ℝ) (e : QEngineCPU) : QEngineCPU :=
  match e.stateVec with
  | none => e -- a released store: the source closure dereferences the null stateVec here
  | some v => { e with stateVec := some (v.mapBelow e.maxQPowerOcl fun lcv amp =>
      let nPhaseSteps := popCountOcl (lcv &&& mask) % nPhases
      if nPhaseSteps ≠ 0 then polar 1 (radians * nPhaseSteps) * amp else amp) }

namespace QEngineCPU

def uniformParityRZCall (mask : Nat) (angle : ℝ) (e : QEngineCPU) :
    Except Fault (QEngineCPU × List (QEngineCPU → QEngineCPU)) :=
  if e.maxQPowerOcl ≤ mask then .error (.invalidArgument "QEngineCPU::UniformParityRZ mask out-of-bounds!")
  else match e.stateVec with
    | none => .ok (e, [])
    | some _ => .ok (e, [uniformParityRZKernel mask angle])

def cUniformParityRZCall (cControls : List Nat) (mask : Nat) (angle : ℝ) (e : QEngineCPU) :
    Except Fault (QEngineCPU × List (QEngineCPU → QEngineCPU)) :=
  if cControls = [] then e.uniformParityRZCall mask angle
  else if e.maxQPowerOcl ≤ mask then .error (.invalidArgument "QEngineCPU::CUniformParityRZ mask out-of-bounds!")
  else if qbIdArrayIsBad cControls e.qubitCount then
    .error (.invalidArgument "QEngineCPU::CUniformParityRZ control is out-of-bounds!")
  else match e.stateVec with
    | none => .ok (e, [])
    | some _ => .ok (e, [cUniformParityRZKernel (cControls.mergeSort fun a b => a ≤ b) mask angle])

def uniformParityRZ (mask : Nat) (angle : ℝ) (e : QEngineCPU) : Except Fault QEngineCPU :=
  (e.uniformParityRZCall mask angle).map runClosures

def cUniformParityRZ (cControls : List Nat) (mask : Nat) (angle : ℝ) (e : QEngineCPU) : Except Fault QEngineCPU :=
  (e.cUniformParityRZCall cControls mask angle).map runClosures

section PhaseCalls

variable (cfg : Config) (sched : Schedule)

def phaseParityCall (wordBytes : Nat) (radians : ℝ) (mask : Nat) (e : QEngineCPU) :
    Except Fault (QEngineCPU × List (QEngineCPU → QEngineCPU)) :=
  if e.maxQPowerOcl ≤ mask then .error (.invalidArgument "QEngineCPU::PhaseParity mask out-of-bounds!")
  else match e.stateVec with
    | none => .ok (e, [])
    | some _ =>
        if mask = 0 then .ok (e, [])
        else if isPowerOfTwo mask then
          let phaseFac := parityPhase (radians / 2) true
          e.mtrxCall cfg sched ![1 / phaseFac, 0, 0, phaseFac] (Nat.log2 mask)
        else .ok (e, [phaseParityKernel wordBytes mask radians])

def phaseParity (wordBytes : Nat) (radians : ℝ) (mask : Nat) (e : QEngineCPU) : Except Fault QEngineCPU :=
  (e.phaseParityCall cfg sched wordBytes radians mask).map runClosures

def phaseRootNMaskCall (wordBytes n mask : Nat) (e : QEngineCPU) :
    Except Fault (QEngineCPU × List (QEngineCPU → QEngineCPU)) :=
  if e.maxQPowerOcl ≤ mask then .error (.invalidArgument "QEngineCPU::PhaseRootNMask mask out-of-bounds!")
  else match e.stateVec with
    | none => .ok (e, [])
    | some _ =>
        if n = 0 ∨ mask = 0 then .ok (e, [])
        else if n = 1 then .ok (e, [zMaskKernel mask])
        else match pow2Ocl wordBytes (n - 1) with
          | none => .error .undefinedShift
          | some half =>
              let radians := -Real.pi / half
              if isPowerOfTwo mask then e.mtrxCall cfg sched ![1, 0, 0, polar 1 radians] (Nat.log2 mask)
              else match pow2Ocl wordBytes n with
                | none => .error .undefinedShift
                | some nPhases => .ok (e, [phaseRootNMaskKernel mask nPhases radians])

def phaseRootNMask (wordBytes n mask : Nat) (e : QEngineCPU) : Except Fault QEngineCPU :=
  (e.phaseRootNMaskCall cfg sched wordBytes n mask).map runClosures

end PhaseCalls

end QEngineCPU

section ControlBits

theorem testBit_foldl_or_two_pow (cs : List Nat) (acc j : Nat) :
    ((cs.map (2 ^ ·)).foldl (· ||| ·) acc).testBit j = (acc.testBit j || decide (j ∈ cs)) := by
  induction cs generalizing acc with
  | nil => simp
  | cons c cs ih => simp [ih, Nat.testBit_or, Nat.testBit_two_pow, Bool.or_assoc, eq_comm]

@[simp] theorem testBit_controlMask (cs : List Nat) (j : Nat) :
    (controlMask (cs.map (2 ^ ·))).testBit j = decide (j ∈ cs) := by
  simp [controlMask, testBit_foldl_or_two_pow]

theorem mem_parForMask_controls (hi lcv : Nat) (cs : List Nat) :
    lcv ∈ parForMask hi (cs.map (2 ^ ·)) ↔ lcv < hi ∧ ∀ c ∈ cs, lcv.testBit c = false := by
  simp [and_two_pow_eq_zero]

variable {cs : List Nat} {i lcv : Nat}

theorem controlMask_lt {n : Nat} (below : ∀ c ∈ cs, c < n) : controlMask (cs.map (2 ^ ·)) < 2 ^ n :=
  Nat.lt_pow_two_of_testBit _ fun j above => by
    simpa using fun mem => Nat.not_lt.mpr above (below j mem)

theorem controlMask_or_andNot (set : ∀ c ∈ cs, i.testBit c = true) :
    controlMask (cs.map (2 ^ ·)) ||| andNot i (controlMask (cs.map (2 ^ ·))) = i := by
  apply Nat.eq_of_testBit_eq
  intro j
  by_cases mem : j ∈ cs <;> simp [Nat.testBit_or, mem, set j]

theorem andNot_controlMask_or (clear : ∀ c ∈ cs, lcv.testBit c = false) :
    andNot (controlMask (cs.map (2 ^ ·)) ||| lcv) (controlMask (cs.map (2 ^ ·))) = lcv := by
  apply Nat.eq_of_testBit_eq
  intro j
  by_cases mem : j ∈ cs <;> simp [Nat.testBit_or, mem, clear j]

end ControlBits

def lowBitCount (w x : Nat) : Nat := (List.range w).countP x.testBit

section XorFold

theorem xorFold_zero (v : Nat) : xorFold 0 v = v := by
  rw [xorFold, dif_pos rfl]

theorem xorFold_pos {paritySize : Nat} (v : Nat) (pos : paritySize ≠ 0) :
    xorFold paritySize v = xorFold (paritySize >>> 1) (v ^^^ v >>> paritySize) := by
  rw [xorFold, dif_neg pos]

theorem lowBitCount_add (m k x : Nat) : lowBitCount (m + k) x = lowBitCount m x + lowBitCount k (x >>> m) := by
  simp only [lowBitCount, List.range_add, List.countP_append, List.countP_map]
  congr 2
  funext j
  exact (Nat.testBit_shiftRight x).symm

theorem countP_testBit_xor (l : List Nat) (a b : Nat) :
    l.countP (a ^^^ b).testBit % 2 = (l.countP a.testBit + l.countP b.testBit) % 2 := by
  induction l with
  | nil => rfl
  | cons j l ih =>
      simp only [List.countP_cons, Nat.testBit_xor]
      cases a.testBit j <;> cases b.testBit j <;> simp <;> omega

theorem lowBitCount_one (x : Nat) : lowBitCount 1 x % 2 = x % 2 := by
  have : List.range 1 = [0] := rfl
  simp only [lowBitCount, this, List.countP_singleton, Nat.testBit_zero, decide_eq_true_eq]
  split <;> omega

theorem lowBitCount_fold_step (m v : Nat) : lowBitCount m (v ^^^ v >>> m) % 2 = lowBitCount (m + m) v % 2 := by
  rw [lowBitCount, countP_testBit_xor, lowBitCount_add]
  rfl

theorem xorFold_two_pow_mod_two (k v : Nat) : xorFold (2 ^ k) v % 2 = lowBitCount (2 ^ (k + 1)) v % 2 := by
  induction k generalizing v with
  | zero =>
      rw [pow_zero, xorFold_pos v one_ne_zero, show 1 >>> 1 = 0 from rfl, xorFold_zero, ← lowBitCount_one,
        lowBitCount_fold_step]
      rfl
  | succ k ih =>
      rw [xorFold_pos v (by positivity), Nat.shiftRight_one, Nat.pow_succ, Nat.mul_div_cancel _ two_pos, ih,
        ← Nat.pow_succ, lowBitCount_fold_step, ← Nat.two_mul, ← Nat.pow_succ']

theorem lowBitCount_of_lt {w x : Nat} (small : x < 2 ^ w) (k : Nat) : lowBitCount (w + k) x = lowBitCount w x := by
  rw [lowBitCount_add, Nat.shiftRight_eq_div_pow, Nat.div_eq_of_lt small]
  simp [lowBitCount]

theorem lowBitCount_eq_popCountOcl {w x : Nat} (small : x < 2 ^ w) : lowBitCount w x = popCountOcl x := by
  show _ = lowBitCount x x
  rcases le_total w x with le | le
  · obtain ⟨k, rfl⟩ := Nat.exists_eq_add_of_le le
    rw [lowBitCount_of_lt small]
  · obtain ⟨k, rfl⟩ := Nat.exists_eq_add_of_le le
    rw [lowBitCount_of_lt (Nat.lt_two_pow x)]

theorem xorFold_parity (k v : Nat) (small : v < 2 ^ 2 ^ (k + 1)) : xorFold (2 ^ k) v &&& 1 = popCountOcl v % 2 := by
  rw [Nat.and_one_is_mod, xorFold_two_pow_mod_two, lowBitCount_eq_popCountOcl small]

theorem xorFold_word_parity (j x : Nat) (small : x < 2 ^ (8 * 2 ^ j)) :
    xorFold (4 * 2 ^ j) x &&& 1 = popCountOcl x % 2 := by
  rw [show 8 * 2 ^ j = 2 ^ (j + 2 + 1) by ring] at small
  rw [show 4 * 2 ^ j = 2 ^ (j + 2) by ring, xorFold_parity _ _ small]

end XorFold

section RootPhase

theorem polar_one_eq_exp (θ : ℝ) : polar 1 θ = Complex.exp (θ * Complex.I) :=
  Complex.ext (by simp [polar, Complex.exp_re]) (by simp [polar, Complex.exp_im])

theorem rootPhase_mod (m pc : Nat) (amp : ℂ) :
    (if pc % 2 ^ (m + 1) ≠ 0 then polar 1 (-Real.pi / ↑(2 ^ m : Nat) * ↑(pc % 2 ^ (m + 1))) * amp else amp) =
      Complex.exp (↑(-(Real.pi * pc / 2 ^ m)) * Complex.I) * amp := by
  have turns : Complex.exp (↑(-(Real.pi * pc / 2 ^ m)) * Complex.I) =
      Complex.exp (↑(-Real.pi / ↑(2 ^ m : Nat) * ↑(pc % 2 ^ (m + 1))) * Complex.I) := by
    have whole : -(Real.pi * pc / 2 ^ m) =
        -Real.pi / ↑(2 ^ m : Nat) * ↑(pc % 2 ^ (m + 1)) - ↑(pc / 2 ^ (m + 1)) * (2 * Real.pi) := by
      have split : (pc : ℝ) = ↑(pc % 2 ^ (m + 1)) + 2 ^ (m + 1) * ↑(pc / 2 ^ (m + 1)) := by
        exact_mod_cast (Nat.mod_add_div pc (2 ^ (m + 1))).symm
      generalize ((pc / 2 ^ (m + 1) : Nat) : ℝ) = q at split ⊢
      rw [split, Nat.cast_pow, Nat.cast_two]
      field_simp
      ring
    rw [whole, Complex.ofReal_sub, sub_mul, Complex.exp_sub]
    push_cast
    rw [show (↑(pc / 2 ^ (m + 1)) * (2 * ↑Real.pi) * Complex.I : ℂ) = ↑(pc / 2 ^ (m + 1)) * (2 * ↑Real.pi * Complex.I) by ring,
      Complex.exp_nat_mul_two_pi_mul_I, div_one]
  rw [turns]
  split
  · rw [polar_one_eq_exp]
  · next skipped =>
      rw [not_not.mp skipped]
      simp

end RootPhase


section Laws

variable (cfg : Config) (sched : Schedule) (e : QEngineCPU) (v : StateVector) (store : e.stateVec = some v)
  (mask : Nat) (inside : mask < e.maxQPowerOcl) (angle : ℝ)

include store inside in
theorem uniformParityRZ_amp :
    ∃ w, e.uniformParityRZ mask angle = .ok { e with stateVec := some w } ∧
      ∀ i, w.amp i = if i < e.maxQPowerOcl then v.amp i * parityPhase angle (oddParity mask i) else v.amp i :=
  ⟨v.mapBelow e.maxQPowerOcl fun lcv amp => amp * parityPhase angle (oddParity mask lcv), by
    simp [QEngineCPU.uniformParityRZ, QEngineCPU.uniformParityRZCall, Nat.not_le.mpr inside, store, Except.map,
      runClosures, uniformParityRZKernel], fun _ => rfl⟩

include store inside in
theorem cUniformParityRZ_amp (controls : List Nat) (nonempty : controls ≠ [])
    (valid : qbIdArrayIsBad controls e.qubitCount = false) :
    ∃ w, e.cUniformParityRZ controls mask angle = .ok { e with stateVec := some w } ∧
      ∀ i, w.amp i = if i < e.maxQPowerOcl ∧ ∀ c ∈ controls, i.testBit c = true then
        v.amp i * parityPhase angle (oddParity mask (andNot i (controlMask (controls.map (2 ^ ·))))) else v.amp i := by
  let sorted := controls.mergeSort fun a b => a ≤ b
  have same : ∀ c, c ∈ sorted ↔ c ∈ controls := fun c => (List.mergeSort_perm _ _).mem_iff
  have below : ∀ c ∈ sorted, c < e.qubitCount := fun c mem => by
    simp only [qbIdArrayIsBad, Bool.or_eq_false_iff, List.any_eq_false, decide_eq_true_eq, Nat.not_le] at valid
    exact valid.1 c ((same c).mp mem)
  have sameMask : controlMask (sorted.map (2 ^ ·)) = controlMask (controls.map (2 ^ ·)) :=
    Nat.eq_of_testBit_eq fun j => by simp [same]
  let lcvs := parForMask e.maxQPowerOcl (sorted.map (2 ^ ·))
  have distinct : (lcvs.map (controlMask (sorted.map (2 ^ ·)) ||| ·)).Nodup := by
    refine (nodup_parForMask _ _).map_on fun a memA b memB hits => ?_
    rw [← andNot_controlMask_or ((mem_parForMask_controls _ _ _).mp memA).2,
      ← andNot_controlMask_or ((mem_parForMask_controls _ _ _).mp memB).2, hits]
  refine ⟨lcvs.foldl (StateVector.mapStep (controlMask (sorted.map (2 ^ ·)) ||| ·) fun lcv amp =>
    amp * parityPhase angle (oddParity mask lcv)) v, by simp [QEngineCPU.cUniformParityRZ, QEngineCPU.cUniformParityRZCall, nonempty,
    Nat.not_le.mpr inside, valid, store, Except.map, runClosures, cUniformParityRZKernel, lcvs, sorted], fun i => ?_⟩
  split
  · next sub =>
      have set : ∀ c ∈ sorted, i.testBit c = true := fun c mem => sub.2 c ((same c).mp mem)
      have visited : andNot i (controlMask (sorted.map (2 ^ ·))) ∈ lcvs := by
        exact (mem_parForMask_controls _ _ _).mpr ⟨lt_of_le_of_lt (andNot_le _ _) sub.1, fun c mem => by simp [mem]⟩
      have slot := StateVector.foldl_mapStep_slot _ (fun lcv amp => amp * parityPhase angle (oddParity mask lcv))
        lcvs v distinct _ visited
      rw [controlMask_or_andNot set] at slot
      rw [slot, sameMask]
  · next outsideSub =>
      refine StateVector.foldl_mapStep_frame _ _ lcvs v i fun hit => outsideSub ?_
      obtain ⟨lcv, mem, rfl⟩ := List.mem_map.mp hit
      exact ⟨Nat.or_lt_two_pow (controlMask_lt below) ((mem_parForMask_controls _ _ _).mp mem).1, fun c memC => by simp [Nat.testBit_or, (same c).mpr memC]⟩

include store inside in
/-- When no control lies in the mask, `CUniformParityRZ` acts on the indices with every control set
exactly as `UniformParityRZ` does. -/
theorem cUniformParityRZ_refines_uniform (controls : List Nat) (nonempty : controls ≠ [])
    (valid : qbIdArrayIsBad controls e.qubitCount = false) (disjoint : ∀ c ∈ controls, mask.testBit c = false) :
    ∃ w u, e.cUniformParityRZ controls mask angle = .ok { e with stateVec := some w } ∧
      e.uniformParityRZ mask angle = .ok { e with stateVec := some u } ∧
      ∀ i, (∀ c ∈ controls, i.testBit c = true) → w.amp i = u.amp i := by
  obtain ⟨w, call, wAmp⟩ := cUniformParityRZ_amp e v store mask inside angle controls nonempty valid
  obtain ⟨u, uniform, uAmp⟩ := uniformParityRZ_amp e v store mask inside angle
  refine ⟨w, u, call, uniform, fun i set => ?_⟩
  have masked : andNot i (controlMask (controls.map (2 ^ ·))) &&& mask = i &&& mask :=
    Nat.eq_of_testBit_eq fun j => by
      by_cases mem : j ∈ controls <;> simp [Nat.testBit_and, mem, disjoint j]
  rw [wAmp, uAmp]
  by_cases below : i < e.maxQPowerOcl
  · rw [if_pos ⟨below, set⟩, if_pos below, oddParity, oddParity, masked]
  · rw [if_neg fun inside => below inside.1, if_neg below]

theorem cUniformParityRZ_refines_uniform_pair :
    (⟨2, some ((StateVector.alloc 4).write 3 1), 1, false, false, 0⟩ : QEngineCPU).stateVec =
        some ((StateVector.alloc 4).write 3 1) ∧
      1 < (⟨2, some ((StateVector.alloc 4).write 3 1), 1, false, false, 0⟩ : QEngineCPU).maxQPowerOcl ∧
      qbIdArrayIsBad [1] 2 = false ∧ (∀ c ∈ [1], Nat.testBit 1 c = false) ∧
    ∃ w u, (⟨2, some ((StateVector.alloc 4).write 3 1), 1, false, false, 0⟩ : QEngineCPU).cUniformParityRZ [1] 1
        (Real.pi / 2) = .ok { (⟨2, some ((StateVector.alloc 4).write 3 1), 1, false, false, 0⟩ : QEngineCPU) with
          stateVec := some w } ∧
      (⟨2, some ((StateVector.alloc 4).write 3 1), 1, false, false, 0⟩ : QEngineCPU).uniformParityRZ 1 (Real.pi / 2) =
        .ok { (⟨2, some ((StateVector.alloc 4).write 3 1), 1, false, false, 0⟩ : QEngineCPU) with stateVec := some u } ∧
      ∀ i, (∀ c ∈ [1], i.testBit c = true) → w.amp i = u.amp i :=
  ⟨rfl, by decide, by decide, by decide, cUniformParityRZ_refines_uniform
    ⟨2, some ((StateVector.alloc 4).write 3 1), 1, false, false, 0⟩ _ rfl 1 (by decide) _ [1] (List.cons_ne_nil _ _)
    (by decide) (by decide)⟩

/-- On one control and a mask of that same qubit, the index `1` has odd parity on the mask, yet
`CUniformParityRZ` turns it by the even phase `e^{-i angle}`: the parity is taken after the control
bit is cleared. -/
theorem cUniformParityRZ_clears_controls_before_parity (e : QEngineCPU) (v : StateVector)
    (store : e.stateVec = some v) (qubits : 0 < e.qubitCount) (angle : ℝ) (turning : Real.sin angle ≠ 0)
    (occupied : v.amp 1 ≠ 0) :
    oddParity 1 1 = true ∧ ∃ w, e.cUniformParityRZ [0] 1 angle = .ok { e with stateVec := some w } ∧
      w.amp 1 = v.amp 1 * parityPhase angle false ∧ w.amp 1 ≠ v.amp 1 * parityPhase angle true := by
  have one : 1 < e.maxQPowerOcl := Nat.one_lt_two_pow qubits.ne'
  obtain ⟨w, call, amp⟩ := cUniformParityRZ_amp e v store 1 one angle [0] (List.cons_ne_nil _ _)
    (by simp [qbIdArrayIsBad, qubits.ne'])
  have cleared : andNot 1 (controlMask ([0].map (2 ^ ·))) = 0 := by decide
  have flipped : parityPhase angle false ≠ parityPhase angle true := fun same => by
    have := congrArg Complex.im same
    simp only [parityPhase, Bool.false_eq_true, if_false, if_true] at this
    exact turning (eq_zero_of_neg_eq this)
  refine ⟨by decide, w, call, ?_, ?_⟩
  · rw [amp, if_pos ⟨one, by simp⟩, cleared]
    rfl
  · rw [amp, if_pos ⟨one, by simp⟩, cleared]
    exact fun same => flipped (mul_left_cancel₀ occupied same)

theorem cUniformParityRZ_clears_controls_before_parity_example :
    ((some ((StateVector.alloc 2).write 1 1)) = some ((StateVector.alloc 2).write 1 1) ∧ 0 < 1 ∧
      Real.sin (Real.pi / 2) ≠ 0 ∧ ((StateVector.alloc 2).write 1 1).amp 1 ≠ 0) ∧
    oddParity 1 1 = true ∧ ∃ w, (⟨1, some ((StateVector.alloc 2).write 1 1), 1, false, false, 0⟩ : QEngineCPU).cUniformParityRZ
      [0] 1 (Real.pi / 2) = .ok { (⟨1, some ((StateVector.alloc 2).write 1 1), 1, false, false, 0⟩ : QEngineCPU) with
        stateVec := some w } ∧
      w.amp 1 = ((StateVector.alloc 2).write 1 1).amp 1 * parityPhase (Real.pi / 2) false ∧
      w.amp 1 ≠ ((StateVector.alloc 2).write 1 1).amp 1 * parityPhase (Real.pi / 2) true :=
  ⟨⟨rfl, Nat.one_pos, by simp, by simp⟩, cUniformParityRZ_clears_controls_before_parity
    ⟨1, some ((StateVector.alloc 2).write 1 1), 1, false, false, 0⟩ _ rfl Nat.one_pos _ (by simp) (by simp)⟩

theorem parityPhase_eq_exp (angle : ℝ) (odd : Bool) :
    parityPhase angle odd = Complex.exp (↑(if odd then angle else -angle) * Complex.I) := by
  apply Complex.ext <;> cases odd <;> simp [parityPhase, Complex.exp_re, Complex.exp_im]

include store inside in
theorem phaseParityKernel_eq (j : Nat) (fits : e.qubitCount ≤ 8 * 2 ^ j) (radians : ℝ) :
    phaseParityKernel (2 ^ j) mask radians e = uniformParityRZKernel mask (radians / 2) e := by
  have slot : ∀ lcv < e.maxQPowerOcl, lcv &&& mask ||| lcv &&& ((e.maxQPowerOcl - 1) ^^^ mask) = lcv :=
    fun lcv below => (xMask_indices inside below).1
  have positions : (List.range e.maxQPowerOcl).map (fun lcv => lcv &&& mask ||| lcv &&& ((e.maxQPowerOcl - 1) ^^^ mask)) =
      List.range e.maxQPowerOcl := by
    rw [List.map_congr_left fun lcv mem => slot lcv (List.mem_range.mp mem), List.map_id']
  simp only [phaseParityKernel, uniformParityRZKernel, store]
  congr 2
  ext i
  · simp
  · rw [StateVector.mapBelow]
    dsimp only
    split
    · next below =>
        have word : i &&& mask < 2 ^ (8 * 2 ^ j) :=
          lt_of_le_of_lt Nat.and_le_left (lt_of_lt_of_le below (Nat.pow_le_pow_right two_pos fits))
        have odd : (xorFold (4 * 2 ^ j) (i &&& mask) &&& 1 != 0) = oddParity mask i := by
          rw [xorFold_word_parity j _ word, oddParity]
          rcases Nat.mod_two_eq_zero_or_one (popCountOcl (i &&& mask)) with parity | parity <;> simp [parity]
        have written := StateVector.foldl_mapStep_slot _ (fun lcv amp =>
          parityPhase (radians / 2) (xorFold (4 * 2 ^ j) (lcv &&& mask) &&& 1 != 0) * amp)
          (List.range e.maxQPowerOcl) v (by rw [positions]; exact List.nodup_range _) i (List.mem_range.mpr below)
        dsimp only at written
        rw [slot i below] at written
        rw [written, odd, mul_comm]
    · next above =>
        exact StateVector.foldl_mapStep_frame _ _ _ v i (by rw [positions]; simpa using above)

include store inside in
/-- On a mask of two or more bits, `PhaseParity(θ, mask)` and `UniformParityRZ(mask, θ / 2)` leave
the same store: each amplitude of the register turned by `e^{iθ/2}` at odd parity and `e^{-iθ/2}`
at even. The register fits the `8 * sizeof(bitCapIntOcl)` bits of the index word. -/
theorem phaseParity_agrees_with_uniformParityRZ
    (twoBits : ∃ a b, a < b ∧ mask.testBit a = true ∧ mask.testBit b = true)
    (j : Nat) (fits : e.qubitCount ≤ 8 * 2 ^ j) (θ : ℝ) :
    (∃ w, e.phaseParity cfg sched (2 ^ j) θ mask = .ok { e with stateVec := some w } ∧
      e.uniformParityRZ mask (θ / 2) = .ok { e with stateVec := some w } ∧
      ∀ i, w.amp i = if i < e.maxQPowerOcl then
        Complex.exp (↑(if popCountOcl (i &&& mask) % 2 = 1 then θ / 2 else -(θ / 2)) * Complex.I) * v.amp i
        else v.amp i) ∧
    ∀ x < 2 ^ (8 * 2 ^ j), xorFold (4 * 2 ^ j) x &&& 1 = popCountOcl x % 2 := by
  obtain ⟨a, b, lower, bitA, bitB⟩ := twoBits
  have nonzero : mask ≠ 0 := fun zero => by simp [zero] at bitA
  obtain ⟨u, uniform, uAmp⟩ := uniformParityRZ_amp e v store mask inside (θ / 2)
  have same : e.phaseParity cfg sched (2 ^ j) θ mask = e.uniformParityRZ mask (θ / 2) := by
    simp only [QEngineCPU.phaseParity, QEngineCPU.phaseParityCall, QEngineCPU.uniformParityRZ,
      QEngineCPU.uniformParityRZCall, Nat.not_le.mpr inside, if_false, store, nonzero,
      isPowerOfTwo_eq_false_of_two_bits lower bitA bitB, Bool.false_eq_true, Except.map, runClosures,
      List.foldl, phaseParityKernel_eq e v store mask inside j fits]
  refine ⟨⟨u, same.trans uniform, uniform, fun i => ?_⟩, xorFold_word_parity j⟩
  rw [uAmp]
  split <;> simp [parityPhase_eq_exp, oddParity, mul_comm]

theorem phaseParity_agrees_with_uniformParityRZ_three :
    let e : QEngineCPU := ⟨2, some ((StateVector.alloc 4).write 0 1), 1, false, false, 0⟩
    let v := (StateVector.alloc 4).write 0 1
    (e.stateVec = some v ∧ 3 < e.maxQPowerOcl ∧ (∃ a b, a < b ∧ Nat.testBit 3 a = true ∧ Nat.testBit 3 b = true) ∧
      e.qubitCount ≤ 8 * 2 ^ 3) ∧
    (∃ w, e.phaseParity exampleConfig oneWorker (2 ^ 3) Real.pi 3 = .ok { e with stateVec := some w } ∧
      e.uniformParityRZ 3 (Real.pi / 2) = .ok { e with stateVec := some w } ∧
      ∀ i, w.amp i = if i < e.maxQPowerOcl then
        Complex.exp (↑(if popCountOcl (i &&& 3) % 2 = 1 then Real.pi / 2 else -(Real.pi / 2)) * Complex.I) * v.amp i
        else v.amp i) ∧
    ∀ x < 2 ^ (8 * 2 ^ 3), xorFold (4 * 2 ^ 3) x &&& 1 = popCountOcl x % 2 :=
  ⟨⟨rfl, by decide, ⟨0, 1, by decide, by decide, by decide⟩, by decide⟩,
    phaseParity_agrees_with_uniformParityRZ exampleConfig oneWorker ⟨2, some ((StateVector.alloc 4).write 0 1), 1, false,
      false, 0⟩ _ rfl 3 (by decide) ⟨0, 1, by decide, by decide, by decide⟩ 3 (by decide) Real.pi⟩

end Laws

section RootLaw

variable (cfg : Config) (sched : Schedule) (wordBytes : Nat) (mask : Nat)
  (twoBits : ∃ a b, a < b ∧ mask.testBit a = true ∧ mask.testBit b = true)

include twoBits in
theorem phaseRootNMask_eq (e : QEngineCPU) (v : StateVector) (store : e.stateVec = some v)
    (inside : mask < e.maxQPowerOcl) (n : Nat) (two : 2 ≤ n) (fits : n < 8 * wordBytes) :
    e.phaseRootNMask cfg sched wordBytes n mask = .ok { e with stateVec := some (v.mapBelow e.maxQPowerOcl
      fun lcv amp => Complex.exp (↑(-(Real.pi * popCountOcl (lcv &&& mask) / 2 ^ (n - 1))) * Complex.I) * amp) } := by
  obtain ⟨a, b, lower, bitA, bitB⟩ := twoBits
  have nonzero : mask ≠ 0 := fun zero => by simp [zero] at bitA
  obtain ⟨m, rfl⟩ : ∃ m, n = m + 1 := ⟨n - 1, by omega⟩
  have half : pow2Ocl wordBytes m = some (2 ^ m) := if_pos (by omega)
  have full : pow2Ocl wordBytes (m + 1) = some (2 ^ (m + 1)) := if_pos fits
  have notOne : m + 1 ≠ 1 := by omega
  simp only [QEngineCPU.phaseRootNMask, QEngineCPU.phaseRootNMaskCall, Nat.not_le.mpr inside, if_false, store,
    nonzero, or_false, Nat.add_sub_cancel, half, full, isPowerOfTwo_eq_false_of_two_bits lower bitA bitB,
    Bool.false_eq_true, Nat.succ_ne_zero, notOne, Except.map, runClosures, List.foldl, phaseRootNMaskKernel,
    rootPhase_mod]

include twoBits in
theorem phaseRootNMask_replicate (n : Nat) (two : 2 ≤ n) (fits : n < 8 * wordBytes) (k : Nat) :
    ∀ (e : QEngineCPU) (v : StateVector), e.stateVec = some v → mask < e.maxQPowerOcl →
      (List.replicate k ()).foldlM (fun e _ => e.phaseRootNMask cfg sched wordBytes n mask) e =
        .ok { e with stateVec := some (v.mapBelow e.maxQPowerOcl fun lcv amp =>
          Complex.exp (↑(-(Real.pi * popCountOcl (lcv &&& mask) / 2 ^ (n - 1))) * Complex.I) ^ k * amp) } := by
  induction k with
  | zero =>
      intro e v store _
      rw [List.replicate_zero, List.foldlM_nil]
      simp only [pow_zero, one_mul, StateVector.mapBelow_id]
      cases e
      cases store
      rfl
  | succ k ih =>
      intro e v store inside
      rw [List.replicate_succ, List.foldlM_cons, phaseRootNMask_eq cfg sched wordBytes mask twoBits e v store inside n two fits]
      simp only [bind, Except.bind]
      rw [ih { e with stateVec := some _ } _ rfl inside]
      simp only [QEngineCPU.maxQPowerOcl, StateVector.mapBelow_mapBelow, pow_succ, mul_assoc]

include twoBits in
theorem phaseRootNMask_root_law (e : QEngineCPU) (v : StateVector) (store : e.stateVec = some v)
    (inside : mask < e.maxQPowerOcl) (n : Nat) (two : 2 ≤ n) (fits : n < 8 * wordBytes) :
    (∃ w, e.phaseRootNMask cfg sched wordBytes n mask = .ok { e with stateVec := some w } ∧
      ∀ i, w.amp i = if i < e.maxQPowerOcl then
        Complex.exp (↑(-(Real.pi * popCountOcl (i &&& mask) / 2 ^ (n - 1))) * Complex.I) * v.amp i else v.amp i) ∧
    (List.replicate (2 ^ n) ()).foldlM (fun e _ => e.phaseRootNMask cfg sched wordBytes n mask) e = .ok e := by
  refine ⟨⟨_, phaseRootNMask_eq cfg sched wordBytes mask twoBits e v store inside n two fits, fun i => rfl⟩, ?_⟩
  have turn : ∀ pc : Nat, Complex.exp (↑(-(Real.pi * pc / 2 ^ (n - 1))) * Complex.I) ^ 2 ^ n = 1 := fun pc => by
    obtain ⟨m, rfl⟩ : ∃ m, n = m + 1 := ⟨n - 1, by omega⟩
    have whole := rootPhase_mod m (2 ^ (m + 1) * pc) 1
    rw [Nat.mul_mod_right, if_neg (not_not.mpr rfl), mul_one] at whole
    rw [← Complex.exp_nat_mul, Nat.add_sub_cancel, whole]
    congr 1
    push_cast
    ring
  rw [phaseRootNMask_replicate cfg sched wordBytes mask twoBits n two fits _ e v store inside]
  simp only [turn, one_mul, StateVector.mapBelow_id]
  cases e
  cases store
  rfl

end RootLaw

/-- With a 64-bit `bitCapIntOcl`, `PhaseRootNMask(64, 3)` on two qubits reaches `pow2Ocl(64)`, a shift
past the word, where the root law turns index 1 by `e^{-iπ/2^63} ≠ 1`. -/
theorem phaseRootNMask_shifts_past_word :
    pow2Ocl 8 64 = none ∧
    (⟨2, some ((StateVector.alloc 4).write 1 1), 1, false, false, 0⟩ : QEngineCPU).phaseRootNMask exampleConfig
      oneWorker 8 64 3 = .error .undefinedShift ∧
    Complex.exp (((-(Real.pi * popCountOcl (1 &&& 3) / 2 ^ (64 - 1)) : ℝ) : ℂ) * Complex.I) ≠ 1 := by
  refine ⟨rfl, rfl, fun one => ?_⟩
  have pc : popCountOcl (1 &&& 3) = 1 := by decide
  have turned := congrArg Complex.im one
  rw [Complex.exp_ofReal_mul_I_im, pc, Complex.one_im, Real.sin_neg, neg_eq_zero] at turned
  have below : Real.pi * (1 : Nat) / 2 ^ (64 - 1) < Real.pi := by
    rw [Nat.cast_one, mul_one]
    exact div_lt_self Real.pi_pos (by norm_num)
  exact (Real.sin_pos_of_pos_of_lt_pi (by positivity) below).ne' turned

end

end Qrack
