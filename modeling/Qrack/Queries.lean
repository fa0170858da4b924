import Qrack.Collapse

set_option autoImplicit false

/- The queries that read the store: the conditional probability `CtrlOrAntiProb`, the readout `GetProbs` and
   the page copy `GetAmplitudePage`. `CtrlOrAntiProb(controlState, control, target)` divides the norm of the
   amplitudes with the target set and the control in `controlState` by `Prob(control)` (or its complement),
   so on an engine of norm at most 1 the two answers weighted by the marginal add up to `Prob(target)`. It
   never reads a released store: a store released by `Prob`'s normalisation makes the marginal 0 and one of
   the shortcuts returns first. It does not check that the control differs from the target. The values of
   `ProbReg` over all outcomes of a register add up to the norm of the store. `GetProbs` normalises before
   it reads the store, and faults exactly when that normalisation releases it. On an engine that normalises,
   `GetQuantumState` after `SetQuantumState(buf)` returns `buf` scaled to a norm within `FP_NORM_EPSILON` of
   1, or faults when the norm of `buf` is that small. -/

namespace Qrack

noncomputable section

def ctrlOneChance (sched : Schedule) (qControlPower qControlMask qPower maxQPowerOcl : Nat) (v : StateVector) : ℝ :=
  ∑ i ∈ Finset.range sched.numCores, (parForSkip maxQPowerOcl qPower 1).foldl
    (fun r lcv => if lcv &&& qControlPower = qControlMask then
      Function.update r (sched.cpu lcv) (r (sched.cpu lcv) + Complex.normSq (v.amp (lcv ||| qPower))) else r)
    (fun _ => (0 : ℝ)) i

/-- Modelled from the spec: `get_probs(out)` writes the norm of each allocated amplitude. -/
def StateVector.getProbs (v : StateVector) (out : Nat → ℝ) : Nat → ℝ :=
  fun i => if i < v.size then Complex.normSq (v.amp i) else out i

/-- Modelled from the spec: `copy_out(pagePtr, offset, length)` copies `length` amplitudes from
`offset` to the start of the caller's buffer. -/
def StateVector.copyOut (v : StateVector) (page : Nat → ℂ) (offset length : Nat) : Nat → ℂ :=
  fun lcv => if lcv < length then v.amp (offset + lcv) else page lcv

namespace Async

variable (cfg : Config) (sched : Schedule)

def ctrlOrAntiProb (controlState : Bool) (control target : Nat) (a : Async) : Except Fault (ℝ × Async) :=
  match a.engine.stateVec with
  | none => .ok (0, a)
  | some _ => (a.prob cfg sched control).bind fun r =>
      let controlProb := if controlState then r.1 else 1 - r.1
      if controlProb ≤ cfg.fpNormEpsilon then .ok (0, r.2)
      else if 1 - controlProb ≤ cfg.fpNormEpsilon then r.2.prob cfg sched target
      else if r.2.engine.qubitCount ≤ target then
        .error (.invalidArgument "QEngineCPU::CtrlOrAntiProb target index parameter must be within allocated qubit bounds!")
      else match r.2.engine.stateVec with
        | none => .error .nullStateVec
        | some v => .ok (clampProb (ctrlOneChance sched (2 ^ control) (if controlState then 2 ^ control else 0)
            (2 ^ target) r.2.engine.maxQPowerOcl v / controlProb), r.2)

def getProbs (out : Nat → ℝ) (a : Async) : Except Fault ((Nat → ℝ) × Async) :=
  match a.engine.stateVec with
  | none => .ok (fun lcv => if lcv < a.engine.maxQPowerOcl then 0 else out lcv, a)
  | some _ =>
      let a := (if a.engine.doNormalize then a.normalize cfg else a).finish
      match a.engine.stateVec with
      | none => .error .nullStateVec
      | some v => .ok (v.getProbs out, a)

def getAmplitudePage (page : Nat → ℂ) (offset length : Nat) (a : Async) : Except Fault ((Nat → ℂ) × Async) :=
  if isBadPermRange offset length a.engine.maxQPowerOcl then
    .error (.invalidArgument "QEngineCPU::GetAmplitudePage range is out-of-bounds!")
  else
    match a.finish.engine.stateVec with
    | some v => .ok (v.copyOut page offset length, a.finish)
    | none => .ok (fun lcv => if lcv < length then 0 else page lcv, a.finish)

end Async

section ClassSums

/- The norm of a class of indices, `((L.filter keep).map fun i => Complex.normSq (v.amp i)).sum`. -/

variable (v : StateVector) (L : List Nat)

theorem classNorm_split (keep split : Nat → Bool) :
    ((L.filter fun i => keep i && split i).map fun i => Complex.normSq (v.amp i)).sum +
        ((L.filter fun i => keep i && !split i).map fun i => Complex.normSq (v.amp i)).sum =
      ((L.filter keep).map fun i => Complex.normSq (v.amp i)).sum := by
  have parts := List.sum_map_filter_add_sum_map_filter_not (fun i => split i = true)
    (fun i => Complex.normSq (v.amp i)) (L.filter keep)
  simp only [List.filter_filter, Bool.decide_eq_true, decide_not, Bool.and_comm] at parts
  exact parts

theorem classNorm_mono (keep keep' : Nat → Bool) (sub : ∀ i, keep i = true → keep' i = true) :
    ((L.filter keep).map fun i => Complex.normSq (v.amp i)).sum ≤
      ((L.filter keep').map fun i => Complex.normSq (v.amp i)).sum :=
  ((List.monotone_filter_right L sub).map _).sum_le_sum fun x mem => by
    obtain ⟨i, -, rfl⟩ := List.mem_map.mp mem
    exact Complex.normSq_nonneg _

theorem classNorm_fiberwise (f : Nat → Nat) (K : Nat) (maps : ∀ i ∈ L, f i < K) :
    ∑ p ∈ Finset.range K, ((L.filter fun i => f i == p).map fun i => Complex.normSq (v.amp i)).sum =
      (L.map fun i => Complex.normSq (v.amp i)).sum := by
  induction L with
  | nil => simp
  | cons i L ih =>
      have split : ∀ p, (((i :: L).filter fun j => f j == p).map fun j => Complex.normSq (v.amp j)).sum =
          (if f i = p then Complex.normSq (v.amp i) else 0) +
            ((L.filter fun j => f j == p).map fun j => Complex.normSq (v.amp j)).sum := fun p => by
        by_cases hit : f i = p <;> simp [List.filter_cons, hit]
      rw [Finset.sum_congr rfl fun p _ => split p, Finset.sum_add_distrib, Finset.sum_ite_eq,
        if_pos (Finset.mem_range.mpr (maps i (List.mem_cons_self _ _))),
        ih fun j mem => maps j (List.mem_cons_of_mem _ mem), List.map_cons, List.sum_cons]

end ClassSums

section Conditional

variable (sched : Schedule) (v : StateVector)

theorem and_two_pow_eq_mask (n c : Nat) (cs : Bool) : (n &&& 2 ^ c = if cs then 2 ^ c else 0) ↔ n.testBit c = cs := by
  rw [Nat.and_two_pow]
  cases n.testBit c <;> cases cs <;> simp [(Nat.two_pow_pos c).ne, (Nat.two_pow_pos c).ne']

theorem ctrlOneChance_eq_map_sum (qControlPower qControlMask qPower maxQPowerOcl : Nat) :
    ctrlOneChance sched qControlPower qControlMask qPower maxQPowerOcl v =
      ((parForSkip maxQPowerOcl qPower 1).map fun lcv =>
        if lcv &&& qControlPower = qControlMask then Complex.normSq (v.amp (lcv ||| qPower)) else 0).sum := by
  have skip : ∀ (r : Nat → ℝ) lcv, (if lcv &&& qControlPower = qControlMask then
      Function.update r (sched.cpu lcv) (r (sched.cpu lcv) + Complex.normSq (v.amp (lcv ||| qPower))) else r) =
      Function.update r (sched.cpu lcv) (r (sched.cpu lcv) +
        if lcv &&& qControlPower = qControlMask then Complex.normSq (v.amp (lcv ||| qPower)) else 0) := by
    intro r lcv
    split <;> simp
  simp only [ctrlOneChance, skip]
  rw [foldl_update_add_sum, Finset.sum_const_zero, zero_add]

theorem parForSkip_single (N q : Nat) :
    parForSkip N (2 ^ q) 1 = (List.range N).filter fun lcv => lcv &&& 2 ^ q == 0 := by
  simp [parForSkip]

theorem ctrlOneChance_eq_sum (N control target : Nat) (cs : Bool) (distinct : control ≠ target) (inside : target < N) :
    ctrlOneChance sched (2 ^ control) (if cs then 2 ^ control else 0) (2 ^ target) (2 ^ N) v =
      (((List.range (2 ^ N)).filter fun i => i.testBit target && i.testBit control == cs).map
        fun i => Complex.normSq (v.amp i)).sum := by
  let f : Nat → ℝ := fun i => if i.testBit control = cs then Complex.normSq (v.amp i) else 0
  have summand : (fun lcv => if lcv &&& 2 ^ control = (if cs then 2 ^ control else 0) then
      Complex.normSq (v.amp (lcv ||| 2 ^ target)) else 0) = fun lcv => f (lcv ||| 2 ^ target) := by
    funext lcv
    have bit : (lcv ||| 2 ^ target).testBit control = lcv.testBit control := by
      simp [Nat.testBit_or, Nat.testBit_two_pow, Ne.symm distinct]
    simp only [f, and_two_pow_eq_mask, bit]
  rw [ctrlOneChance_eq_map_sum, summand, parForSkip_single,
    sum_filter_or_eq N (2 ^ target) (2 ^ target) f (Nat.pow_lt_pow_right (by decide) inside) (Nat.and_self _)]
  simp only [and_two_pow_beq, f, List.sum_map_ite, List.map_const', List.sum_replicate, smul_zero, add_zero,
    List.filter_filter]
  congr 2
  exact List.filter_congr fun i _ => by cases i.testBit control <;> cases cs <;> simp [Bool.and_comm]

theorem ctrlOneChance_same (N q : Nat) (cs : Bool) (inside : q < N) :
    ctrlOneChance sched (2 ^ q) (if cs then 2 ^ q else 0) (2 ^ q) (2 ^ N) v =
      if cs then 0 else (((List.range (2 ^ N)).filter fun i => i.testBit q).map fun i => Complex.normSq (v.amp i)).sum := by
  rw [ctrlOneChance_eq_map_sum, parForSkip_single]
  cases cs with
  | true =>
      refine List.sum_eq_zero fun x mem => ?_
      obtain ⟨lcv, visited, rfl⟩ := List.mem_map.mp mem
      have clear := beq_iff_eq.mp (List.mem_filter.mp visited).2
      simp [clear, (Nat.two_pow_pos q).ne]
  | false =>
      simp only [Bool.false_eq_true, if_false]
      rw [List.map_congr_left fun lcv visited => if_pos (beq_iff_eq.mp (List.mem_filter.mp visited).2),
        sum_filter_or_eq N (2 ^ q) (2 ^ q) (fun i => Complex.normSq (v.amp i)) (Nat.pow_lt_pow_right (by decide) inside)
          (Nat.and_self _)]
      simp only [and_two_pow_beq]

end Conditional

namespace Async

variable (cfg : Config) (sched : Schedule)

theorem prob_released (q : Nat) (a r : Async) (p : ℝ) (query : a.prob cfg sched q = .ok (p, r))
    (released : r.engine.stateVec = none) : p = 0 := by
  simp only [prob] at query
  split at query
  · cases query
  · generalize (if a.engine.doNormalize then a.normalize cfg else a).finish = b at query
    split at query
    · exact (Prod.mk.inj (Except.ok.inj query)).1.symm
    · next v store =>
        have same : b = r := by split at query <;> exact (Prod.mk.inj (Except.ok.inj query)).2
        simp [← same, store] at released

theorem ctrlOrAntiProb_mixed (a r : Async) (hasStore : a.engine.stateVec.isSome) (controlState : Bool)
    (control target : Nat) (pc : ℝ) (marginal : a.prob cfg sched control = .ok (pc, r))
    (mixed : cfg.fpNormEpsilon < (if controlState then pc else 1 - pc) ∧
      cfg.fpNormEpsilon < 1 - (if controlState then pc else 1 - pc))
    (withinT : target < r.engine.qubitCount) (v : StateVector) (store : r.engine.stateVec = some v) :
    a.ctrlOrAntiProb cfg sched controlState control target =
      .ok (clampProb (ctrlOneChance sched (2 ^ control) (if controlState then 2 ^ control else 0) (2 ^ target)
        r.engine.maxQPowerOcl v / (if controlState then pc else 1 - pc)), r) := by
  obtain ⟨w, stored⟩ := Option.isSome_iff_exists.mp hasStore
  simp only [ctrlOrAntiProb, stored, marginal, Except.bind, if_neg (not_le.mpr mixed.1), if_neg (not_le.mpr mixed.2),
    if_neg (not_le.mpr withinT), store]

theorem prob_ne_nullStateVec (q : Nat) (a : Async) : a.prob cfg sched q ≠ .error .nullStateVec := by
  simp only [prob]
  split
  · simp
  · generalize (if a.engine.doNormalize then a.normalize cfg else a).finish = b
    split
    · simp
    · split <;> simp

/-- `CtrlOrAntiProb` never reads a released store: when `Prob(control)`'s normalisation releases it, the
marginal is 0, and one of the two shortcuts returns first. -/
theorem ctrlOrAntiProb_ne_nullStateVec (controlState : Bool) (control target : Nat) (a : Async) :
    a.ctrlOrAntiProb cfg sched controlState control target ≠ .error .nullStateVec := by
  have eps := cfg.fpNormEpsilon_pos
  unfold ctrlOrAntiProb
  split
  · simp
  · cases query : a.prob cfg sched control with
    | error fault =>
        simp only [Except.bind]
        rw [← query]
        exact prob_ne_nullStateVec cfg sched control a
    | ok r =>
        simp only [Except.bind]
        generalize marginal : (if controlState then r.1 else 1 - r.1) = controlProb
        generalize (if controlState then 2 ^ control else 0) = qControlMask
        split_ifs with low high outside
        · simp
        · exact prob_ne_nullStateVec cfg sched target r.2
        · simp
        · split
          · next released =>
              have zero := prob_released cfg sched control a r.2 r.1 query released
              cases controlState <;> simp only [zero, if_true, if_false, Bool.false_eq_true, sub_zero] at marginal <;>
                subst marginal <;> simp only [sub_zero, sub_self] at low high <;> linarith
          · simp

def uniformPair : QEngineCPU := ⟨2, some ⟨4, fun _ => ((1 / 2 : ℝ) : ℂ)⟩, 1, false, false, 0⟩

theorem uniformPair_normSum : (⟨4, fun _ => ((1 / 2 : ℝ) : ℂ)⟩ : StateVector).normSum = 1 := by
  simp [StateVector.normSum, Finset.sum_range_succ, Complex.normSq_ofReal]
  norm_num

section TotalProbability

/- `r` is the engine `Prob`'s normalisation and `Finish()` leave, with a store `v` of norm at most 1. -/

variable (a r : Async) (v : StateVector) (settled : (if a.engine.doNormalize then a.normalize cfg else a).finish = r)
  (store : r.engine.stateVec = some v) (sized : v.size = r.engine.maxQPowerOcl) (atMost : v.normSum ≤ 1)

include settled store sized atMost in
theorem prob_eq_sum (q : Nat) (inside : q < a.engine.qubitCount) (wide : 2 ≤ r.engine.qubitCount)
    (within : q < r.engine.qubitCount) :
    a.prob cfg sched q = .ok ((((List.range r.engine.maxQPowerOcl).filter fun i => i.testBit q).map
      fun i => Complex.normSq (v.amp i)).sum, r) := by
  rw [prob_eq_clamp_sum cfg sched a r v q inside settled store wide within,
    clampProb_of_mem (classNorm_nonneg v _) ((classNorm_le_normSum v _ sized _).trans atMost)]

theorem uniformPair_prob (q : Nat) (inside : q < 2) :
    (⟨uniformPair, []⟩ : Async).prob cfg sched q = .ok (1 / 2, ⟨uniformPair, []⟩) := by
  rw [prob_eq_sum cfg sched ⟨uniformPair, []⟩ ⟨uniformPair, []⟩ ⟨4, fun _ => ((1 / 2 : ℝ) : ℂ)⟩ rfl rfl rfl
    uniformPair_normSum.le q inside le_rfl inside]
  have half : Complex.normSq ((1 / 2 : ℝ) : ℂ) + Complex.normSq ((1 / 2 : ℝ) : ℂ) = 1 / 2 := by
    rw [Complex.normSq_ofReal]; norm_num
  obtain rfl | rfl : q = 0 ∨ q = 1 := by omega
  · have ones : ((List.range (2 ^ 2)).filter fun i => i.testBit 0) = [1, 3] := by decide
    simp only [uniformPair, QEngineCPU.maxQPowerOcl, ones, List.map_cons, List.map_nil, List.sum_cons, List.sum_nil,
      add_zero, half]
  · have ones : ((List.range (2 ^ 2)).filter fun i => i.testBit 1) = [2, 3] := by decide
    simp only [uniformPair, QEngineCPU.maxQPowerOcl, ones, List.map_cons, List.map_nil, List.sum_cons, List.sum_nil,
      add_zero, half]

include settled store sized atMost in
/-- The law of total probability: for a control apart from the target, on an engine of norm at most 1
where `Prob(control)` returns `pc` with neither shortcut taken, `CtrlOrAntiProb` for the control set and
for it clear, weighted by `pc` and `1 - pc`, add up to `Prob(target)`. -/
theorem ctrlOrAntiProb_total (control target : Nat) (distinct : control ≠ target) (hasStore : a.engine.stateVec.isSome)
    (insideT : target < a.engine.qubitCount) (withinC : control < r.engine.qubitCount)
    (withinT : target < r.engine.qubitCount) (pc : ℝ) (marginal : a.prob cfg sched control = .ok (pc, r))
    (mixed : cfg.fpNormEpsilon < pc ∧ cfg.fpNormEpsilon < 1 - pc) :
    ∃ p1 p0 pt, a.ctrlOrAntiProb cfg sched true control target = .ok (p1, r) ∧
      a.ctrlOrAntiProb cfg sched false control target = .ok (p0, r) ∧ a.prob cfg sched target = .ok (pt, r) ∧
      p1 * pc + p0 * (1 - pc) = pt := by
  have insideC : control < a.engine.qubitCount := by
    by_contra outside
    simp [prob, not_lt.mp outside] at marginal
  have wide : 2 ≤ r.engine.qubitCount := by omega
  have eps := cfg.fpNormEpsilon_pos
  let norm : (Nat → Bool) → ℝ := fun keep =>
    (((List.range r.engine.maxQPowerOcl).filter keep).map fun i => Complex.normSq (v.amp i)).sum
  have nonneg : ∀ keep, 0 ≤ norm keep := fun keep => classNorm_nonneg v _
  have marginalEq : pc = norm fun i => i.testBit control := by
    rw [prob_eq_sum cfg sched a r v settled store sized atMost control insideC wide withinC] at marginal
    exact (Prod.mk.inj (Except.ok.inj marginal)).1.symm
  have reduction : ∀ cs : Bool, ctrlOneChance sched (2 ^ control) (if cs then 2 ^ control else 0) (2 ^ target)
      r.engine.maxQPowerOcl v = norm fun i => i.testBit target && i.testBit control == cs :=
    fun cs => ctrlOneChance_eq_sum sched v _ control target cs distinct withinT
  have joint : norm (fun i => i.testBit target && i.testBit control == true) +
      norm (fun i => i.testBit target && i.testBit control == false) = norm fun i => i.testBit target := by
    simp only [norm, beq_true, beq_false]
    exact classNorm_split v _ _ _
  have setBelow : norm (fun i => i.testBit target && i.testBit control == true) ≤ pc := by
    rw [marginalEq]
    exact classNorm_mono v _ _ _ fun i keep => by
      simp only [beq_true, Bool.and_eq_true] at keep
      exact keep.2
  have clearBelow : norm (fun i => i.testBit target && i.testBit control == false) ≤ 1 - pc := by
    have whole := classNorm_split v (List.range r.engine.maxQPowerOcl) (fun _ => true) fun i => i.testBit control
    simp only [Bool.true_and, List.filter_true] at whole
    have total : norm (fun i => i.testBit control) + norm (fun i => !i.testBit control) ≤ 1 := by
      refine le_trans (le_of_eq ?_) ((classNorm_le_normSum v _ sized fun _ => true).trans atMost)
      simp only [norm, whole, List.filter_true]
    have sub := classNorm_mono v (List.range r.engine.maxQPowerOcl) (fun i => i.testBit target && i.testBit control == false)
      (fun i => !i.testBit control) fun i keep => by
        simp only [beq_false, Bool.and_eq_true] at keep
        exact keep.2
    rw [marginalEq]
    exact le_sub_iff_add_le'.mpr ((add_le_add_left sub _).trans total)
  refine ⟨_, _, _, ctrlOrAntiProb_mixed cfg sched a r hasStore true control target pc marginal (by simpa using mixed)
    withinT v store, ctrlOrAntiProb_mixed cfg sched a r hasStore false control target pc marginal
    (by simpa [and_comm] using mixed) withinT v store,
    prob_eq_sum cfg sched a r v settled store sized atMost target insideT wide withinT, ?_⟩
  have positive : 0 < pc := eps.trans mixed.1
  have positive' : 0 < 1 - pc := eps.trans mixed.2
  have setReduction := reduction true
  have clearReduction := reduction false
  simp only [if_true, if_false, Bool.false_eq_true] at setReduction clearReduction ⊢
  rw [setReduction, clearReduction, clampProb_of_mem (div_nonneg (nonneg _) positive.le) ((div_le_one positive).mpr setBelow),
    clampProb_of_mem (div_nonneg (nonneg _) positive'.le) ((div_le_one positive').mpr clearBelow),
    div_mul_cancel₀ _ positive.ne', div_mul_cancel₀ _ positive'.ne']
  exact joint

theorem ctrlOrAntiProb_total_uniform :
    (⟨uniformPair, []⟩ : Async).prob exampleConfig oneWorker 0 = .ok (1 / 2, ⟨uniformPair, []⟩) ∧
      exampleConfig.fpNormEpsilon < 1 / 2 ∧ exampleConfig.fpNormEpsilon < 1 - 1 / 2 ∧
      ∃ p1 p0 pt, (⟨uniformPair, []⟩ : Async).ctrlOrAntiProb exampleConfig oneWorker true 0 1 = .ok (p1, ⟨uniformPair, []⟩) ∧
        (⟨uniformPair, []⟩ : Async).ctrlOrAntiProb exampleConfig oneWorker false 0 1 = .ok (p0, ⟨uniformPair, []⟩) ∧
        (⟨uniformPair, []⟩ : Async).prob exampleConfig oneWorker 1 = .ok (pt, ⟨uniformPair, []⟩) ∧
        p1 * (1 / 2) + p0 * (1 - 1 / 2) = pt :=
  have mixed : exampleConfig.fpNormEpsilon < 1 / 2 ∧ exampleConfig.fpNormEpsilon < 1 - 1 / 2 := by
    norm_num [exampleConfig]
  ⟨uniformPair_prob exampleConfig oneWorker 0 (by decide), mixed.1, mixed.2,
    ctrlOrAntiProb_total exampleConfig oneWorker ⟨uniformPair, []⟩ ⟨uniformPair, []⟩ _ rfl rfl rfl uniformPair_normSum.le 0 1 (by decide) rfl (by decide)
      (by decide) (by decide) (1 / 2) (uniformPair_prob exampleConfig oneWorker 0 (by decide)) mixed⟩

theorem eq_of_clampProb_eq {S p : ℝ} (positive : 0 < p) (belowOne : p < 1) (clamped : clampProb S = p) : S = p := by
  unfold clampProb at clamped
  rcases le_total 1 S with above | below
  · rw [min_eq_left above, max_eq_right zero_le_one] at clamped
    exact absurd clamped belowOne.ne'
  · rcases le_total 0 S with nonneg | nonpos
    · rwa [min_eq_right below, max_eq_right nonneg] at clamped
    · rw [min_eq_right below, max_eq_left nonpos] at clamped
      exact absurd clamped positive.ne

theorem prob_mixed_eq_sum (q : Nat) (p : ℝ) (marginal : a.prob cfg sched q = .ok (p, r))
    (store : r.engine.stateVec = some v) (within : q < r.engine.qubitCount) (positive : 0 < p) (belowOne : p < 1) :
    p = (((List.range r.engine.maxQPowerOcl).filter fun i => i.testBit q).map fun i => Complex.normSq (v.amp i)).sum := by
  have inside : q < a.engine.qubitCount := by
    by_contra outside
    simp [prob, not_lt.mp outside] at marginal
  have settled : (if a.engine.doNormalize then a.normalize cfg else a).finish = r := by
    simp only [prob, not_le.mpr inside, if_false] at marginal
    generalize (if a.engine.doNormalize then a.normalize cfg else a).finish = b at marginal ⊢
    split at marginal
    · exact (Prod.mk.inj (Except.ok.inj marginal)).2
    · split at marginal <;> exact (Prod.mk.inj (Except.ok.inj marginal)).2
  by_cases wide : 2 ≤ r.engine.qubitCount
  · rw [prob_eq_clamp_sum cfg sched a r v q inside settled store wide within] at marginal
    exact (eq_of_clampProb_eq positive belowOne (Prod.mk.inj (Except.ok.inj marginal)).1).symm
  · have one : r.engine.qubitCount = 1 := by omega
    obtain rfl : q = 0 := by omega
    simp only [prob, not_le.mpr inside, if_false, settled, store, one, if_true] at marginal
    have ones : ((List.range (2 ^ 1)).filter fun i => i.testBit 0) = [1] := by decide
    rw [← (Prod.mk.inj (Except.ok.inj marginal)).1, QEngineCPU.maxQPowerOcl, one, ones]
    simp

/-- `CtrlOrAntiProb` does not check that the control differs from the target. With both on qubit `q` and
`Prob(q)` returning `p` away from 0 and 1, it returns 0 for the control set, where the conditional
probability is 1, and the clamped `p / (1 - p)` for the control clear, where it is 0. -/
theorem ctrlOrAntiProb_same_qubit (q : Nat) (hasStore : a.engine.stateVec.isSome) (within : q < r.engine.qubitCount)
    (p : ℝ) (marginal : a.prob cfg sched q = .ok (p, r)) (mixed : cfg.fpNormEpsilon < p ∧ cfg.fpNormEpsilon < 1 - p) :
    a.ctrlOrAntiProb cfg sched true q q = .ok (0, r) ∧
      a.ctrlOrAntiProb cfg sched false q q = .ok (clampProb (p / (1 - p)), r) := by
  have positive : 0 < p := cfg.fpNormEpsilon_pos.trans mixed.1
  obtain ⟨w, store⟩ : ∃ w, r.engine.stateVec = some w := by
    cases kept : r.engine.stateVec with
    | none => exact absurd (prob_released cfg sched q a r p marginal kept) positive.ne'
    | some w => exact ⟨w, rfl⟩
  have classEq := prob_mixed_eq_sum cfg sched a r w q p marginal store within positive
    (sub_pos.mp (cfg.fpNormEpsilon_pos.trans mixed.2))
  rw [ctrlOrAntiProb_mixed cfg sched a r hasStore true q q p marginal (by simpa using mixed) within w store,
    ctrlOrAntiProb_mixed cfg sched a r hasStore false q q p marginal (by simpa [and_comm] using mixed) within w store]
  have setSame := ctrlOneChance_same sched w _ q true within
  have clearSame := ctrlOneChance_same sched w _ q false within
  simp only [if_true, if_false, Bool.false_eq_true] at setSame clearSame ⊢
  rw [QEngineCPU.maxQPowerOcl, setSame, clearSame, ← QEngineCPU.maxQPowerOcl, ← classEq, zero_div]
  exact ⟨by rw [clampProb_of_mem le_rfl zero_le_one], rfl⟩

theorem ctrlOrAntiProb_same_qubit_uniform :
    (⟨uniformPair, []⟩ : Async).prob exampleConfig oneWorker 0 = .ok (1 / 2, ⟨uniformPair, []⟩) ∧
      (⟨uniformPair, []⟩ : Async).ctrlOrAntiProb exampleConfig oneWorker true 0 0 = .ok (0, ⟨uniformPair, []⟩) ∧
      (⟨uniformPair, []⟩ : Async).ctrlOrAntiProb exampleConfig oneWorker false 0 0 =
        .ok (clampProb ((1 / 2) / (1 - 1 / 2)), ⟨uniformPair, []⟩) :=
  have mixed : exampleConfig.fpNormEpsilon < 1 / 2 ∧ exampleConfig.fpNormEpsilon < 1 - 1 / 2 := by
    norm_num [exampleConfig]
  ⟨uniformPair_prob exampleConfig oneWorker 0 (by decide),
    ctrlOrAntiProb_same_qubit exampleConfig oneWorker ⟨uniformPair, []⟩ ⟨uniformPair, []⟩ 0 rfl (by decide)
      (1 / 2) (uniformPair_prob exampleConfig oneWorker 0 (by decide)) mixed⟩

include settled store sized atMost in
/-- The outcomes of a register form a distribution: on an engine of norm at most 1, `ProbReg(start, length,
perm)` over the `2 ^ length` values of the register adds up to the norm of the store, 1 on a unit store. -/
theorem probReg_outcomes_sum (start length : Nat) (fits : start + length ≤ r.engine.qubitCount) :
    ∑ perm ∈ Finset.range (2 ^ length), (a.probReg cfg sched start length perm).1 = v.normSum := by
  have each : ∀ perm ∈ Finset.range (2 ^ length), (a.probReg cfg sched start length perm).1 =
      (((List.range r.engine.maxQPowerOcl).filter fun i => (i >>> start) % 2 ^ length == perm).map
        fun i => Complex.normSq (v.amp i)).sum := fun perm mem => by
    rw [probReg_eq_clamp_sum cfg sched a r v start length perm (Finset.mem_range.mp mem) settled store fits,
      clampProb_of_mem (classNorm_nonneg v _) ((classNorm_le_normSum v _ sized _).trans atMost)]
  rw [Finset.sum_congr rfl each, classNorm_fiberwise v _ _ _ fun i _ => Nat.mod_lt _ (Nat.two_pow_pos length),
    StateVector.normSum_eq_sum_range, sized]

theorem probReg_outcomes_sum_uniform :
    (⟨4, fun _ => ((1 / 2 : ℝ) : ℂ)⟩ : StateVector).normSum ≤ 1 ∧
      ∑ perm ∈ Finset.range (2 ^ 2), ((⟨uniformPair, []⟩ : Async).probReg exampleConfig oneWorker 0 2 perm).1 =
        (⟨4, fun _ => ((1 / 2 : ℝ) : ℂ)⟩ : StateVector).normSum :=
  ⟨uniformPair_normSum.le, probReg_outcomes_sum exampleConfig oneWorker ⟨uniformPair, []⟩ ⟨uniformPair, []⟩ _ rfl rfl rfl
    uniformPair_normSum.le 0 2 le_rfl⟩

end TotalProbability

section Readout

theorem normalize_idle (e : QEngineCPU) : (⟨e, []⟩ : Async).normalize cfg = ⟨e.normalize cfg, []⟩ := by
  cases store : e.stateVec with
  | none => simp [normalize, QEngineCPU.normalize, QEngineCPU.normalizeState, store]
  | some v =>
      simp [normalize, QEngineCPU.normalize, QEngineCPU.normalizeState, store, finish, runClosures, cfg.defaultArg_neg]

theorem normalizeScale_released_iff (nrm normThreshF phaseArg : ℝ) (e : QEngineCPU) (v : StateVector)
    (store : e.stateVec = some v) :
    (e.normalizeScale cfg nrm normThreshF phaseArg).stateVec = none ↔ nrm ≤ cfg.fpNormEpsilon := by
  unfold QEngineCPU.normalizeScale
  split_ifs with low near <;> simp [low, store]

theorem normalize_released_iff (e : QEngineCPU) (v : StateVector) (store : e.stateVec = some v) :
    (e.normalize cfg).stateVec = none ↔
      (if e.runningNorm = cfg.defaultArg then parNorm e.maxQPowerOcl v e.amplitudeFloor else e.runningNorm) ≤
        cfg.fpNormEpsilon := by
  rw [QEngineCPU.normalize_eq_normalizeScale cfg e v store]
  split
  · simp only [QEngineCPU.updateRunningNorm, store, if_pos cfg.defaultArg_neg]
    split
    · next low => exact iff_of_true (by unfold QEngineCPU.normalizeScale; split_ifs <;> rfl) low
    · next high => rw [normalizeScale_released_iff cfg _ _ _ _ v rfl]
  · exact normalizeScale_released_iff cfg _ _ _ e v store

/-- `GetProbs` on an engine that normalises, with a store and nothing queued, dereferences a released
store exactly when the norm its `NormalizeState()` reads (the cache, or the norm above the floor when the
cache is unknown) is at most `FP_NORM_EPSILON`; a stale cache that small faults a store of any norm. -/
theorem getProbs_faults_iff (e : QEngineCPU) (v : StateVector) (store : e.stateVec = some v)
    (normalizing : e.doNormalize = true) (out : Nat → ℝ) :
    (⟨e, []⟩ : Async).getProbs cfg out = .error .nullStateVec ↔
      (if e.runningNorm = cfg.defaultArg then parNorm e.maxQPowerOcl v e.amplitudeFloor else e.runningNorm) ≤
        cfg.fpNormEpsilon := by
  rw [← normalize_released_iff cfg e v store]
  simp only [getProbs, store, normalizing, if_true, normalize_idle, finish, runClosures, List.foldl_nil]
  split <;> simp_all

theorem getProbs_faults_on_stale_cache :
    ((⟨1, some ((StateVector.alloc 2).write 0 1), 0, true, false, 0⟩ : QEngineCPU).stateVec =
        some ((StateVector.alloc 2).write 0 1) ∧
      (⟨1, some ((StateVector.alloc 2).write 0 1), 0, true, false, 0⟩ : QEngineCPU).doNormalize = true) ∧
      (⟨⟨1, some ((StateVector.alloc 2).write 0 1), 0, true, false, 0⟩, []⟩ : Async).getProbs exampleConfig (fun _ => 0) =
        .error .nullStateVec :=
  ⟨⟨rfl, rfl⟩, (getProbs_faults_iff exampleConfig _ _ rfl rfl _).mpr (by norm_num [exampleConfig])⟩

/-- `GetProbs` on an engine that normalises, with a store of `2^qubitCount` amplitudes, nothing queued, no
floor and a cache that is unknown or exact: when it returns, it has written the norms of the normalised
amplitudes, and they add up to within `FP_NORM_EPSILON` of 1. -/
theorem getProbs_near_one (e : QEngineCPU) (v : StateVector) (store : e.stateVec = some v) (shaped : StoreShaped cfg e)
    (noFloor : e.amplitudeFloor ≤ 0) (coherent : RunningNormCoherent cfg e) (normalizing : e.doNormalize = true)
    (out probs : Nat → ℝ) (a' : Async) (query : (⟨e, []⟩ : Async).getProbs cfg out = .ok (probs, a')) :
    a' = ⟨e.normalize cfg, []⟩ ∧ (∀ i < e.maxQPowerOcl, probs i = Complex.normSq ((e.normalize cfg).amplitude i)) ∧
      |1 - ∑ i ∈ Finset.range e.maxQPowerOcl, probs i| ≤ cfg.fpNormEpsilon := by
  simp only [getProbs, store, normalizing, if_true, normalize_idle, finish, runClosures, List.foldl_nil] at query
  split at query
  · cases query
  · next w stored =>
      obtain ⟨rfl, rfl⟩ := Prod.mk.inj (Except.ok.inj query)
      have sized : w.size = e.maxQPowerOcl := by
        simpa [QEngineCPU.maxQPowerOcl] using (QEngineCPU.normalize_shaped cfg e shaped).1.2 w stored
      have readout : ∑ i ∈ Finset.range e.maxQPowerOcl, w.getProbs out i = w.normSum := by
        rw [StateVector.normSum, sized]
        exact Finset.sum_congr rfl fun i mem => if_pos (sized ▸ Finset.mem_range.mp mem)
      refine ⟨rfl, fun i below => by simp [StateVector.getProbs, QEngineCPU.amplitude, stored, sized, below], ?_⟩
      rcases (QEngineCPU.normalize_normalizes cfg e shaped noFloor coherent).2 with released | close
      · simp [stored] at released
      · simpa [QEngineCPU.normSum, stored, readout] using close

theorem getProbs_near_one_ground :
    (⟨⟨1, some ((StateVector.alloc 2).write 0 1), 1, true, false, 0⟩, []⟩ : Async).getProbs exampleConfig (fun _ => 0) =
        .ok (((StateVector.alloc 2).write 0 1).getProbs (fun _ => 0), ⟨⟨1, some ((StateVector.alloc 2).write 0 1), 1, true, false, 0⟩, []⟩) ∧
      |1 - ∑ i ∈ Finset.range (⟨1, some ((StateVector.alloc 2).write 0 1), 1, true, false, 0⟩ : QEngineCPU).maxQPowerOcl,
        ((StateVector.alloc 2).write 0 1).getProbs (fun _ => 0) i| ≤ exampleConfig.fpNormEpsilon :=
  have small : exampleConfig.fpNormEpsilon < 1 := exampleConfig_small
  have unchanged := QEngineCPU.normalize_of_runningNorm_one exampleConfig small
    ⟨1, some ((StateVector.alloc 2).write 0 1), 1, true, false, 0⟩ rfl
  have query : (⟨⟨1, some ((StateVector.alloc 2).write 0 1), 1, true, false, 0⟩, []⟩ : Async).getProbs exampleConfig
      (fun _ => 0) = .ok (((StateVector.alloc 2).write 0 1).getProbs (fun _ => 0),
        ⟨⟨1, some ((StateVector.alloc 2).write 0 1), 1, true, false, 0⟩, []⟩) := by
    simp only [getProbs, if_true, normalize_idle, unchanged, finish, runClosures, List.foldl_nil]
  have coherent : RunningNormCoherent exampleConfig ⟨1, some ((StateVector.alloc 2).write 0 1), 1, true, false, 0⟩ :=
    .inr (by simp [QEngineCPU.normSum, StateVector.normSum, Finset.sum_range_succ, StateVector.write, StateVector.alloc])
  ⟨query, (getProbs_near_one exampleConfig _ _ rfl ⟨by norm_num [exampleConfig], fun v store => by cases store; rfl⟩
    le_rfl coherent rfl _ _ _ query).2.2⟩

/-- Forcing a parity measurement onto a parity of norm at most `FP_NORM_EPSILON`, on an engine that
normalises, leaves the store with that norm cached; the `GetProbs` that follows then releases the store
in its `NormalizeState()` and dereferences it. -/
theorem forceMParity_then_getProbs_faults (e : QEngineCPU) (v : StateVector) (store : e.stateVec = some v)
    (normalizing : e.doNormalize = true) (mask : Nat) (inside : mask < e.maxQPowerOcl) (nonzero : mask ≠ 0)
    (result : Bool) (rand : ℝ) (out : Nat → ℝ)
    (unlikely : (((List.range e.maxQPowerOcl).filter fun i => oddParity mask i == result).map
      fun i => Complex.normSq (v.amp i)).sum ≤ cfg.fpNormEpsilon) :
    ∃ a', (⟨e, []⟩ : Async).forceMParity cfg sched mask result true rand = .ok (result, a') ∧
      a'.getProbs cfg out = .error .nullStateVec := by
  refine ⟨_, forceMParity_idle cfg sched e v store mask inside nonzero result rand, ?_⟩
  have chance := (forceMParityLoop_spec sched mask result e.maxQPowerOcl v).2
  have known : (forceMParityLoop sched mask result e.maxQPowerOcl v).2 ≠ cfg.defaultArg :=
    ne_of_gt (lt_of_lt_of_le cfg.defaultArg_neg (forceMParityLoop_nonneg sched mask result _ v))
  generalize forceMParityLoop sched mask result e.maxQPowerOcl v = loop at chance known
  rw [if_pos normalizing,
    getProbs_faults_iff cfg { e with stateVec := some loop.1, runningNorm := loop.2 } _ rfl normalizing out]
  rw [if_neg known, chance]
  exact unlikely

theorem forceMParity_then_getProbs_faults_ground :
    ((((List.range (⟨1, some ((StateVector.alloc 2).write 0 1), 1, true, false, 0⟩ : QEngineCPU).maxQPowerOcl).filter
        fun i => oddParity 1 i == true).map fun i => Complex.normSq (((StateVector.alloc 2).write 0 1).amp i)).sum ≤
        exampleConfig.fpNormEpsilon) ∧
      ∃ a', (⟨⟨1, some ((StateVector.alloc 2).write 0 1), 1, true, false, 0⟩, []⟩ : Async).forceMParity exampleConfig
        oneWorker 1 true true 0 = .ok (true, a') ∧ a'.getProbs exampleConfig (fun _ => 0) = .error .nullStateVec :=
  have odd : ((List.range (2 ^ 1)).filter fun i => oddParity 1 i == true) = [1] := by decide
  have unlikely : (((List.range (⟨1, some ((StateVector.alloc 2).write 0 1), 1, true, false, 0⟩ : QEngineCPU).maxQPowerOcl).filter
      fun i => oddParity 1 i == true).map fun i => Complex.normSq (((StateVector.alloc 2).write 0 1).amp i)).sum ≤
      exampleConfig.fpNormEpsilon := by
    simp only [QEngineCPU.maxQPowerOcl, odd]
    norm_num [StateVector.write, StateVector.alloc, exampleConfig]
  ⟨unlikely, forceMParity_then_getProbs_faults exampleConfig oneWorker _ _ rfl rfl 1 (by decide) (by decide) true 0 _
    unlikely⟩

end Readout

end Async

namespace QEngineCPU

variable (cfg : Config)

/-- `GetQuantumState` after `SetQuantumState(buf)` on an engine that normalises, with no floor and a store
of `2^qubitCount` amplitudes (or none): when the norm of `buf` over the register is at most
`FP_NORM_EPSILON` the normalisation releases the store and the copy dereferences it; otherwise the copy
returns `buf` on the register scaled by a positive factor that brings its norm within `FP_NORM_EPSILON`
of 1. -/
theorem setQuantumState_then_getQuantumState (e : QEngineCPU) (shaped : StoreShaped cfg e)
    (noFloor : e.amplitudeFloor ≤ 0) (normalizing : e.doNormalize = true) (buf : Nat → ℂ) :
    (∑ i ∈ Finset.range e.maxQPowerOcl, Complex.normSq (buf i) ≤ cfg.fpNormEpsilon ∧
        (e.setQuantumState cfg buf).getQuantumState cfg = .error .nullStateVec) ∨
      (cfg.fpNormEpsilon < ∑ i ∈ Finset.range e.maxQPowerOcl, Complex.normSq (buf i) ∧
        ∃ (out : Nat → ℂ) (e' : QEngineCPU) (c : ℝ), (e.setQuantumState cfg buf).getQuantumState cfg = .ok (out, e') ∧ 0 < c ∧
          (∀ i < e.maxQPowerOcl, out i = c * buf i) ∧
          |1 - c ^ 2 * ∑ i ∈ Finset.range e.maxQPowerOcl, Complex.normSq (buf i)| ≤ cfg.fpNormEpsilon) := by
  have sized : (e.allocatedStateVec.copyIn buf).size = e.maxQPowerOcl :=
    (setQuantumState_shaped cfg e shaped buf).2 _ rfl
  have reads : ∀ i < e.maxQPowerOcl, (e.allocatedStateVec.copyIn buf).amp i = buf i :=
    fun i below => if_pos (sized ▸ below)
  simp only [getQuantumState, setQuantumState, normalizing, if_true]
  rw [normalize_eq_normalizeScale cfg _ _ rfl]
  generalize e.allocatedStateVec.copyIn buf = w at sized reads ⊢
  generalize total : ∑ i ∈ Finset.range e.maxQPowerOcl, Complex.normSq (buf i) = n
  have norm : parNorm e.maxQPowerOcl w e.amplitudeFloor = n := by
    rw [parNorm_of_nonpos w _ sized _ noFloor, StateVector.normSum, sized, ← total]
    exact Finset.sum_congr rfl fun i mem => by rw [reads i (Finset.mem_range.mp mem)]
  simp only [if_true, updateRunningNorm, if_pos cfg.defaultArg_neg, maxQPowerOcl] at norm ⊢
  rw [norm]
  have eps := cfg.fpNormEpsilon_pos
  by_cases low : n ≤ cfg.fpNormEpsilon
  · left
    simp [low, normalizeScale, eps.le]
  · right
    refine ⟨not_le.mp low, ?_⟩
    have positive : 0 < n := eps.trans (not_le.mp low)
    simp only [if_neg low, normalizeScale]
    by_cases near : |1 - n| ≤ cfg.fpNormEpsilon
    · simp only [near, mul_zero, eps.le, and_self, if_true]
      exact ⟨_, _, 1, rfl, one_pos, fun i below => by simp [reads i below], by simpa using near⟩
    · simp only [near, false_and, if_false, Option.map_some', cfg.defaultArg_neg, if_true]
      refine ⟨_, _, 1 / Real.sqrt n, rfl, by positivity, fun i below => ?_, ?_⟩
      · simp [StateVector.mapBelow, maxQPowerOcl, below, reads i below, not_lt.mpr noFloor]
      · rw [div_pow, one_pow, Real.sq_sqrt positive.le, one_div_mul_cancel positive.ne', sub_self, abs_zero]
        exact eps.le

theorem setQuantumState_then_getQuantumState_ones :
    ∃ (out : Nat → ℂ) (e' : QEngineCPU) (c : ℝ),
      ((⟨1, none, 0, true, false, 0⟩ : QEngineCPU).setQuantumState exampleConfig fun _ => 1).getQuantumState
        exampleConfig = .ok (out, e') ∧ 0 < c ∧ (∀ i < 2, out i = c * 1) ∧
        |1 - c ^ 2 * 2| ≤ exampleConfig.fpNormEpsilon :=
  have total : ∑ i ∈ Finset.range (⟨1, none, 0, true, false, 0⟩ : QEngineCPU).maxQPowerOcl,
      Complex.normSq ((fun _ : Nat => (1 : ℂ)) i) = 2 := by
    norm_num [maxQPowerOcl]
  match setQuantumState_then_getQuantumState exampleConfig _ ⟨by decide, fun _ store => by cases store⟩ le_rfl rfl
    fun _ => 1 with
  | .inl ⟨low, _⟩ => absurd (total ▸ low) (by norm_num [exampleConfig])
  | .inr ⟨_, found⟩ => total ▸ found

end QEngineCPU

end

end Qrack
