import Qrack.KernelNorm

set_option autoImplicit false

/- The kernels of the mask gate and of the parity and single-qubit probabilities: `XMask`'s dispatched
   closure, the per-worker reductions of `Prob` and `ProbParity`, and the loop of `ForceMParity`. Each
   reduction is shown equal to one sum over the amplitudes it visits, whatever the worker split. -/

namespace Qrack

noncomputable section

-- The closure `XMask(mask)` dispatches: for each `lcv`, with `setInt = lcv & mask` and `resetInt = setInt ^ mask`,
-- swap the amplitudes at `setInt | otherRes` and `resetInt | otherRes` when `setInt ≥ resetInt`.
def xMaskKernel (mask : Nat) (e : QEngineCPU) : QEngineCPU :=
  match e.stateVec with
  | none => e -- a released store: the source closure dereferences the null stateVec here
  | some v =>
      let otherMask := (e.maxQPowerOcl - 1) ^^^ mask
      let step (v : StateVector) (lcv : Nat) : StateVector :=
        let otherRes := lcv &&& otherMask
        let setInt := lcv &&& mask
        let resetInt := setInt ^^^ mask
        if setInt < resetInt then v
        else
          let y0 := v.amp (resetInt ||| otherRes)
          (v.write (resetInt ||| otherRes) (v.amp (setInt ||| otherRes))).write (setInt ||| otherRes) y0
      { e with stateVec := some ((List.range e.maxQPowerOcl).foldl step v) }

@[simp] theorem xMaskKernel_runningNorm (mask : Nat) (e : QEngineCPU) :
    (xMaskKernel mask e).runningNorm = e.runningNorm := by
  unfold xMaskKernel; split <;> rfl

theorem foldl_swap_filter (step : StateVector → Nat → StateVector) (keep : Nat → Bool) (lo hi : Nat → Nat)
    (L : List Nat) (stepEq : ∀ l ∈ L, ∀ w, step w l = if keep l then StateVector.pairStep lo hi (fun _ a b => (b, a)) w l else w)
    (w : StateVector) :
    L.foldl step w = (L.filter keep).foldl (StateVector.pairStep lo hi fun _ a b => (b, a)) w := by
  induction L generalizing w with
  | nil => rfl
  | cons l L ih =>
      have rest := ih fun l' mem => stepEq l' (List.mem_cons_of_mem l mem)
      rw [List.foldl_cons, stepEq l (List.mem_cons_self l L), List.filter_cons]
      cases keep l <;> simp [rest]

section XMaskBits

variable {N mask lcv : Nat}

theorem xMask_indices (inside : mask < 2 ^ N) (below : lcv < 2 ^ N) :
    (lcv &&& mask) ||| (lcv &&& ((2 ^ N - 1) ^^^ mask)) = lcv ∧
      ((lcv &&& mask) ^^^ mask) ||| (lcv &&& ((2 ^ N - 1) ^^^ mask)) = lcv ^^^ mask := by
  constructor <;> apply Nat.eq_of_testBit_eq <;> intro j <;>
    simp only [Nat.testBit_or, Nat.testBit_and, Nat.testBit_xor, Nat.testBit_two_pow_sub_one]
  · by_cases top : j < N
    · cases lcv.testBit j <;> cases mask.testBit j <;> simp [top]
    · simp [top, Nat.testBit_lt_two_pow (lt_of_lt_of_le below (Nat.pow_le_pow_right two_pos (Nat.not_lt.mp top)))]
  · by_cases top : j < N
    · cases lcv.testBit j <;> cases mask.testBit j <;> simp [top]
    · simp [top, Nat.testBit_lt_two_pow (lt_of_lt_of_le below (Nat.pow_le_pow_right two_pos (Nat.not_lt.mp top))),
        Nat.testBit_lt_two_pow (lt_of_lt_of_le inside (Nat.pow_le_pow_right two_pos (Nat.not_lt.mp top)))]

theorem xMask_swaps_once (nonzero : mask ≠ 0) (lcv : Nat) :
    (!decide ((lcv ^^^ mask) &&& mask < (lcv ^^^ mask) &&& mask ^^^ mask)) = decide (lcv &&& mask < lcv &&& mask ^^^ mask) := by
  have flip : (lcv ^^^ mask) &&& mask = lcv &&& mask ^^^ mask := by
    rw [Nat.and_xor_distrib_right, Nat.and_self]
  have apart : lcv &&& mask ≠ lcv &&& mask ^^^ mask := fun same => nonzero (by
    have : lcv &&& mask ^^^ lcv &&& mask = lcv &&& mask ^^^ (lcv &&& mask ^^^ mask) := congrArg _ same
    rwa [Nat.xor_self, ← Nat.xor_assoc, Nat.xor_self, Nat.zero_xor, eq_comm] at this)
  rw [flip, Nat.xor_cancel_right]
  rcases Nat.lt_or_gt_of_ne apart with lt | gt
  · simp [lt, Nat.not_lt.mpr lt.le]
  · simp [gt, Nat.not_lt.mpr gt.le]

end XMaskBits

theorem xMaskKernel_eq (mask : Nat) (e : QEngineCPU) (v : StateVector) (store : e.stateVec = some v)
    (inside : mask < e.maxQPowerOcl) (nonzero : mask ≠ 0) :
    xMaskKernel mask e =
      { e with stateVec := some (⟨v.size, fun i => if i < e.maxQPowerOcl then v.amp (i ^^^ mask) else v.amp i⟩) } := by
  let keep := fun lcv => !decide (lcv &&& mask < lcv &&& mask ^^^ mask)
  let swapped := (List.range e.maxQPowerOcl).filter keep
  have bounded : ∀ l ∈ swapped, l < e.maxQPowerOcl := fun l mem => List.mem_range.mp (List.mem_filter.mp mem).1
  have partner : ∀ l, keep (l ^^^ mask) = !keep l := fun l => by
    simp only [keep, xMask_swaps_once nonzero, Bool.not_not]
  have distinct : (swapped.map (· ^^^ mask) ++ swapped.map id).Nodup := by
    refine List.nodup_append.mpr ⟨((List.nodup_range _).filter _).map Nat.xor_left_injective,
      by simpa using (List.nodup_range _).filter keep, fun x flipped same => ?_⟩
    obtain ⟨l, mem, rfl⟩ := List.mem_map.mp flipped
    have kept := (List.mem_filter.mp mem).2
    have inSwapped : l ^^^ mask ∈ swapped := by simpa using same
    have also := (List.mem_filter.mp inSwapped).2
    rw [partner, kept] at also
    exact Bool.false_ne_true also
  simp only [xMaskKernel, store]
  rw [foldl_swap_filter _ keep (· ^^^ mask) id _ fun l mem w => ?_]
  · congr 2
    refine StateVector.ext (by simp) (funext fun i => ?_)
    dsimp only
    split
    · next below =>
        cases kept : keep i
        · have other : keep (i ^^^ mask) = true := by rw [partner, kept]; rfl
          have mem : i ^^^ mask ∈ swapped :=
            List.mem_filter.mpr ⟨List.mem_range.mpr (Nat.xor_lt_two_pow below inside), other⟩
          simpa [Nat.xor_cancel_right] using
            (StateVector.foldl_pairStep_pair _ _ _ swapped v distinct (i ^^^ mask) mem).1
        · exact (StateVector.foldl_pairStep_pair _ _ _ swapped v distinct i
            (List.mem_filter.mpr ⟨List.mem_range.mpr below, kept⟩)).2
    · next above =>
        refine StateVector.foldl_pairStep_frame _ _ _ swapped v i fun hit => above ?_
        rcases List.mem_append.mp hit with flipped | same
        · obtain ⟨l, mem, rfl⟩ := List.mem_map.mp flipped
          exact Nat.xor_lt_two_pow (bounded l mem) inside
        · obtain ⟨l, mem, rfl⟩ := List.mem_map.mp same
          exact bounded l mem
  · obtain ⟨rebuilt, flippedIdx⟩ := xMask_indices (N := e.qubitCount) inside (List.mem_range.mp mem)
    rw [show e.maxQPowerOcl = 2 ^ e.qubitCount from rfl, rebuilt, flippedIdx]
    by_cases lt : l &&& mask < l &&& mask ^^^ mask
    · simp [keep, lt]
    · simp [keep, lt, StateVector.pairStep, StateVector.write2]

def oddParity (mask lcv : Nat) : Bool := popCountOcl (lcv &&& mask) % 2 == 1

def probOneChance (sched : Schedule) (qPower maxQPowerOcl : Nat) (v : StateVector) : ℝ :=
  ∑ i ∈ Finset.range sched.numCores, (parForSkip maxQPowerOcl qPower 1).foldl
    (fun r lcv => Function.update r (sched.cpu lcv) (r (sched.cpu lcv) + Complex.normSq (v.amp (lcv ||| qPower))))
    (fun _ => (0 : ℝ)) i

-- `Prob(qubit)`'s reduction in the packed-complex build, where a read is a pair of amplitudes and its norm,
-- modelled from the spec, is the sum of the two norms. For qubit 0 each index covers `4·lcv | 1` and `4·lcv | 3`;
-- above it the skip loop runs over half the register and reads `(lcv << 1) | qPower` with its neighbour.
def probOneChancePacked (sched : Schedule) (qPower maxQPowerOcl : Nat) (v : StateVector) : ℝ :=
  if qPower = 1 then
    ∑ i ∈ Finset.range sched.numCores, (List.range (maxQPowerOcl >>> 2)).foldl
      (fun r lcv => Function.update r (sched.cpu lcv) (r (sched.cpu lcv) +
        (Complex.normSq (v.amp (lcv <<< 2 ||| 1)) + Complex.normSq (v.amp (lcv <<< 2 ||| 3)))))
      (fun _ => (0 : ℝ)) i
  else
    ∑ i ∈ Finset.range sched.numCores, (parForSkip (maxQPowerOcl >>> 1) (qPower >>> 1) 1).foldl
      (fun r lcv => Function.update r (sched.cpu lcv) (r (sched.cpu lcv) +
        (Complex.normSq (v.amp (lcv <<< 1 ||| qPower)) + Complex.normSq (v.amp (lcv <<< 1 ||| qPower ||| 1)))))
      (fun _ => (0 : ℝ)) i

def oneChance : Build → Schedule → Nat → Nat → StateVector → ℝ
  | .packed => probOneChancePacked
  | .scalar => probOneChance

def parityOddChance (sched : Schedule) (mask maxQPowerOcl : Nat) (v : StateVector) : ℝ :=
  ∑ i ∈ Finset.range sched.numCores, (List.range maxQPowerOcl).foldl
    (fun r lcv => if oddParity mask lcv then
      Function.update r (sched.cpu lcv) (r (sched.cpu lcv) + Complex.normSq (v.amp lcv)) else r)
    (fun _ => (0 : ℝ)) i

def forceMParityStep (sched : Schedule) (mask : Nat) (result : Bool) (s : StateVector × (Nat → ℝ))
    (lcv : Nat) : StateVector × (Nat → ℝ) :=
  if oddParity mask lcv == result then
    (s.1, Function.update s.2 (sched.cpu lcv) (s.2 (sched.cpu lcv) + Complex.normSq (s.1.amp lcv)))
  else (s.1.write lcv 0, s.2)

def forceMParityLoop (sched : Schedule) (mask : Nat) (result : Bool) (maxQPowerOcl : Nat) (v : StateVector) :
    StateVector × ℝ :=
  let s := (List.range maxQPowerOcl).foldl (forceMParityStep sched mask result) (v, fun _ => 0)
  (s.1, ∑ i ∈ Finset.range sched.numCores, s.2 i)

section Reductions

variable (sched : Schedule)

theorem probOneChance_eq (qPower maxQPowerOcl : Nat) (v : StateVector) :
    probOneChance sched qPower maxQPowerOcl v =
      ((parForSkip maxQPowerOcl qPower 1).map fun lcv => Complex.normSq (v.amp (lcv ||| qPower))).sum := by
  simpa using foldl_update_add_sum sched (fun lcv => Complex.normSq (v.amp (lcv ||| qPower)))
    (parForSkip maxQPowerOcl qPower 1) (fun _ => 0)

theorem parityOddChance_eq (mask maxQPowerOcl : Nat) (v : StateVector) :
    parityOddChance sched mask maxQPowerOcl v =
      (((List.range maxQPowerOcl).filter (oddParity mask)).map fun lcv => Complex.normSq (v.amp lcv)).sum := by
  have skip : ∀ (r : Nat → ℝ) lcv, (if oddParity mask lcv then
      Function.update r (sched.cpu lcv) (r (sched.cpu lcv) + Complex.normSq (v.amp lcv)) else r) =
      Function.update r (sched.cpu lcv)
        (r (sched.cpu lcv) + if oddParity mask lcv then Complex.normSq (v.amp lcv) else 0) := by
    intro r lcv
    split <;> simp
  simp only [parityOddChance, skip]
  rw [foldl_update_add_sum]
  simp [List.sum_map_ite]

theorem sum_filter_or_eq (N mask p : Nat) (f : Nat → ℝ) (inside : mask < 2 ^ N) (sub : p &&& mask = p) :
    (((List.range (2 ^ N)).filter fun lcv => lcv &&& mask == 0).map fun lcv => f (lcv ||| p)).sum =
      (((List.range (2 ^ N)).filter fun i => i &&& mask == p).map f).sum := by
  have small : p < 2 ^ N := lt_of_le_of_lt (sub ▸ Nat.and_le_right) inside
  rw [show (fun lcv => f (lcv ||| p)) = f ∘ (· ||| p) from rfl, ← List.map_map]
  apply List.Perm.sum_eq
  apply List.Perm.map
  apply (List.perm_ext_iff_of_nodup (((List.nodup_range _).filter _).map_on _) ((List.nodup_range _).filter _)).mpr
  · intro i
    simp only [List.mem_map, List.mem_filter, List.mem_range, beq_iff_eq]
    constructor
    · rintro ⟨lcv, ⟨below, disjoint⟩, rfl⟩
      exact ⟨Nat.or_lt_two_pow below small, or_and_mask_eq disjoint sub⟩
    · rintro ⟨below, spelled⟩
      refine ⟨andNot i mask, ⟨lt_of_le_of_lt (andNot_le i mask) below, andNot_and_mask i⟩, ?_⟩
      rw [← spelled]
      exact andNot_or_and_mask i
  · intro x memX y memY same
    simp only [List.mem_filter, beq_iff_eq] at memX memY
    rw [← andNot_or_of_disjoint memX.2 sub, same, andNot_or_of_disjoint memY.2 sub]

theorem sum_map_pair_eq (L K : List Nat) (g1 g2 : Nat → Nat) (f : Nat → ℝ)
    (distinct : (L.map g1 ++ L.map g2).Nodup) (distinctK : K.Nodup)
    (cover : ∀ i, i ∈ K ↔ ∃ l ∈ L, g1 l = i ∨ g2 l = i) :
    (L.map fun l => f (g1 l) + f (g2 l)).sum = (K.map f).sum := by
  rw [List.sum_map_add, show (fun l => f (g1 l)) = f ∘ g1 from rfl, show (fun l => f (g2 l)) = f ∘ g2 from rfl,
    ← List.map_map, ← List.map_map, ← List.sum_append, ← List.map_append]
  apply List.Perm.sum_eq
  apply List.Perm.map
  apply (List.perm_ext_iff_of_nodup distinct distinctK).mpr
  intro i
  simp only [List.mem_append, List.mem_map, cover]
  constructor
  · rintro (⟨l, mem, same⟩ | ⟨l, mem, same⟩)
    exacts [⟨l, mem, .inl same⟩, ⟨l, mem, .inr same⟩]
  · rintro ⟨l, mem, same | same⟩
    exacts [.inl ⟨l, mem, same⟩, .inr ⟨l, mem, same⟩]

theorem nodup_map_append_of_inverse (L : List Nat) (distinct : L.Nodup) (g1 g2 back : Nat → Nat) (k : Nat)
    (back1 : ∀ l ∈ L, back (g1 l) = l) (back2 : ∀ l ∈ L, back (g2 l) = l)
    (sep1 : ∀ l ∈ L, (g1 l).testBit k = false) (sep2 : ∀ l ∈ L, (g2 l).testBit k = true) :
    (L.map g1 ++ L.map g2).Nodup := by
  refine List.nodup_append.mpr ⟨distinct.map_on fun x mx y my same => ?_, distinct.map_on fun x mx y my same => ?_, ?_⟩
  · rw [← back1 x mx, same, back1 y my]
  · rw [← back2 x mx, same, back2 y my]
  · intro i mem1 mem2
    obtain ⟨x, mx, rfl⟩ := List.mem_map.mp mem1
    obtain ⟨y, my, same⟩ := List.mem_map.mp mem2
    have := sep2 y my
    rw [same, sep1 x mx] at this
    exact absurd this Bool.false_ne_true

section PackedReads

variable (v : StateVector) {N q : Nat}

theorem shiftLeft_two_or (l c : Nat) (small : c < 4) : l <<< 2 ||| c = 4 * l + c := by
  rw [Nat.shiftLeft_eq, Nat.mul_comm, show 4 = 2 ^ 2 from rfl, Nat.mul_add_lt_is_or small]

theorem packed_zero_sum (wide : 2 ≤ N) :
    ((List.range (2 ^ N >>> 2)).map fun l =>
        Complex.normSq (v.amp (l <<< 2 ||| 1)) + Complex.normSq (v.amp (l <<< 2 ||| 3))).sum =
      (((List.range (2 ^ N)).filter fun i => i.testBit 0).map fun i => Complex.normSq (v.amp i)).sum := by
  have quarter : 2 ^ N = 4 * (2 ^ N >>> 2) := by
    rw [Nat.shiftRight_eq_div_pow, show N = (N - 2) + 2 by omega, Nat.pow_add]
    simp [Nat.mul_comm]
  apply sum_map_pair_eq _ _ _ _ (fun i => Complex.normSq (v.amp i)) ?_ ((List.nodup_range _).filter _)
  · intro i
    simp only [List.mem_filter, List.mem_range, Nat.testBit_zero, decide_eq_true_eq,
      shiftLeft_two_or _ _ (by decide : 1 < 4), shiftLeft_two_or _ _ (by decide : 3 < 4)]
    constructor
    · rintro ⟨below, odd⟩
      exact ⟨i / 4, by omega, by omega⟩
    · rintro ⟨l, below, rfl | rfl⟩ <;> omega
  · apply nodup_map_append_of_inverse _ (List.nodup_range _) _ _ (· >>> 2) 1
    all_goals intro l _
    all_goals simp only [shiftLeft_two_or _ _ (by decide : 1 < 4), shiftLeft_two_or _ _ (by decide : 3 < 4),
      Nat.shiftRight_eq_div_pow, Nat.testBit_to_div_mod, decide_eq_true_eq, decide_eq_false_iff_not]
    all_goals omega

theorem packed_back (positive : 0 < q) (l c : Nat) (small : c < 2) (clear : l.testBit (q - 1) = false) :
    andNot ((l <<< 1 ||| 2 ^ q ||| c) >>> 1) (2 ^ (q - 1)) = l := by
  apply Nat.eq_of_testBit_eq
  intro j
  have cHigh : ∀ k, 0 < k → c.testBit k = false := fun k pos =>
    Nat.testBit_eq_false_of_lt (lt_of_lt_of_le small (Nat.le_self_pow pos.ne' 2))
  simp only [testBit_andNot, Nat.testBit_shiftRight, Nat.testBit_or, Nat.testBit_shiftLeft, Nat.testBit_two_pow,
    cHigh (1 + j) (by omega)]
  by_cases top : j = q - 1
  · subst top; simp [clear]
  · simp [show 1 + j - 1 = j by omega, show q ≠ 1 + j by omega, Ne.symm top]

theorem packed_split (positive : 0 < q) (i : Nat) (set : i.testBit q = true) :
    andNot (i >>> 1) (2 ^ (q - 1)) <<< 1 ||| 2 ^ q ||| i % 2 = i := by
  apply Nat.eq_of_testBit_eq
  intro j
  simp only [Nat.testBit_or, Nat.testBit_shiftLeft, testBit_andNot, Nat.testBit_shiftRight, Nat.testBit_two_pow]
  rcases Nat.eq_zero_or_pos j with zero | pos
  · subst zero; simp [show q ≠ 0 by omega, Nat.testBit_zero]
  · by_cases at_q : j = q
    · subst at_q; simp [set]
    · have low : (i % 2).testBit j = false :=
        Nat.testBit_eq_false_of_lt (lt_of_lt_of_le (Nat.mod_lt i Nat.two_pos) (Nat.le_self_pow pos.ne' 2))
      simp [show 1 + (j - 1) = j by omega, show ¬ q - 1 = j - 1 by omega, Ne.symm at_q, show j ≥ 1 by omega, low]

theorem packed_high_sum (positive : 0 < q) (inside : q < N) :
    ((parForSkip (2 ^ N >>> 1) (2 ^ q >>> 1) 1).map fun l =>
        Complex.normSq (v.amp (l <<< 1 ||| 2 ^ q)) + Complex.normSq (v.amp (l <<< 1 ||| 2 ^ q ||| 1))).sum =
      (((List.range (2 ^ N)).filter fun i => i.testBit q).map fun i => Complex.normSq (v.amp i)).sum := by
  have half : ∀ n, 0 < n → 2 ^ n >>> 1 = 2 ^ (n - 1) := fun n pos => by
    rw [Nat.shiftRight_eq_div_pow, Nat.pow_div pos Nat.two_pos]
  have double : 2 ^ N = 2 ^ (N - 1) * 2 := by
    rw [← Nat.pow_succ, Nat.succ_eq_add_one, Nat.sub_add_cancel (by omega)]
  rw [half q positive, half N (by omega)]
  apply sum_map_pair_eq _ _ _ _ (fun i => Complex.normSq (v.amp i)) ?_ ((List.nodup_range _).filter _)
  · intro i
    simp only [List.mem_filter, List.mem_range, mem_parForSkip_bit]
    constructor
    · rintro ⟨below, set⟩
      have split := packed_split positive i set
      refine ⟨andNot (i >>> 1) (2 ^ (q - 1)), ⟨lt_of_le_of_lt (andNot_le _ _) ?_, by simp⟩, ?_⟩
      · rw [Nat.shiftRight_eq_div_pow, pow_one]; omega
      · rcases Nat.mod_two_eq_zero_or_one i with even | odd
        · rw [even, Nat.or_zero] at split; exact .inl split
        · rw [odd] at split; exact .inr split
    · have fits : ∀ l < 2 ^ (N - 1), l <<< 1 ||| 2 ^ q < 2 ^ N := fun l below =>
        Nat.or_lt_two_pow (by rw [Nat.shiftLeft_eq, pow_one]; omega) (Nat.pow_lt_pow_right (by decide) inside)
      rintro ⟨l, ⟨below, -⟩, rfl | rfl⟩
      · exact ⟨fits l below, by simp [Nat.testBit_or]⟩
      · exact ⟨Nat.or_lt_two_pow (fits l below) (Nat.one_lt_two_pow (by omega)), by simp [Nat.testBit_or]⟩
  · apply nodup_map_append_of_inverse _ (nodup_parForSkip _ _ _) _ _ (fun i => andNot (i >>> 1) (2 ^ (q - 1))) 0
    · intro l mem
      simpa using packed_back positive l 0 (by decide) ((mem_parForSkip_bit _ _ _).mp mem).2
    · intro l mem
      exact packed_back positive l 1 (by decide) ((mem_parForSkip_bit _ _ _).mp mem).2
    · intro l _
      simp [Nat.testBit_or, positive.ne']
    · intro l _
      simp [Nat.testBit_or]

end PackedReads

theorem oneChance_eq_sum (build : Build) (v : StateVector) (N q : Nat) (wide : 2 ≤ N) (inside : q < N) :
    oneChance build sched (2 ^ q) (2 ^ N) v =
      (((List.range (2 ^ N)).filter fun i => i.testBit q).map fun i => Complex.normSq (v.amp i)).sum := by
  cases build with
  | scalar =>
      have single : (2 ^ 1 - 1) * 2 ^ q = 2 ^ q := by simp
      rw [oneChance, probOneChance_eq, parForSkip, single,
        sum_filter_or_eq N (2 ^ q) (2 ^ q) (fun i => Complex.normSq (v.amp i))
          (Nat.pow_lt_pow_right (by decide) inside) (Nat.and_self _)]
      simp only [and_two_pow_beq]
  | packed =>
      simp only [oneChance, probOneChancePacked, foldl_update_add_sum, Finset.sum_const_zero, zero_add]
      split
      · next one =>
          obtain rfl : q = 0 := by
            by_contra above
            exact absurd one (Nat.one_lt_two_pow above).ne'
          exact packed_zero_sum v wide
      · next above =>
          exact packed_high_sum v (Nat.pos_of_ne_zero fun zero => above (by rw [zero, pow_zero])) inside

theorem foldl_forceMParityStep (mask : Nat) (result : Bool) (L : List Nat) (distinct : L.Nodup)
    (v : StateVector) (r : Nat → ℝ) :
    let s := L.foldl (forceMParityStep sched mask result) (v, r)
    s.1.size = v.size ∧
      (∀ i, s.1.amp i = if i ∈ L ∧ (oddParity mask i == result) = false then 0 else v.amp i) ∧
      ∑ i ∈ Finset.range sched.numCores, s.2 i = ∑ i ∈ Finset.range sched.numCores, r i +
        ((L.filter fun lcv => oddParity mask lcv == result).map fun lcv => Complex.normSq (v.amp lcv)).sum := by
  induction L generalizing v r with
  | nil => simp
  | cons l L ih =>
      obtain ⟨fresh, distinct⟩ := List.nodup_cons.mp distinct
      by_cases keep : (oddParity mask l == result) = true
      · obtain ⟨size, amp, total⟩ := ih distinct v
          (Function.update r (sched.cpu l) (r (sched.cpu l) + Complex.normSq (v.amp l)))
        refine ⟨by simpa [forceMParityStep, keep] using size, fun i => ?_, ?_⟩
        · rw [List.foldl_cons, forceMParityStep, if_pos keep, amp]
          by_cases same : i = l
          · subst same; simp [keep, fresh]
          · simp [same]
        · rw [List.foldl_cons, forceMParityStep, if_pos keep, total, sum_update_add r _ _ (sched.cpu_lt l)]
          simp [keep, add_assoc]
      · obtain ⟨size, amp, total⟩ := ih distinct (v.write l 0) r
        have away : ∀ lcv ∈ L, (v.write l 0).amp lcv = v.amp lcv := fun lcv mem => by
          simp [show lcv ≠ l from fun same => fresh (same ▸ mem)]
        refine ⟨by simpa [forceMParityStep, keep] using size, fun i => ?_, ?_⟩
        · rw [List.foldl_cons, forceMParityStep, if_neg keep, amp]
          by_cases same : i = l
          · subst same; simp [keep, fresh]
          · simp [same]
        · rw [List.foldl_cons, forceMParityStep, if_neg keep, total, List.filter_cons, if_neg keep]
          congr 2
          exact List.map_congr_left fun lcv mem => by rw [away lcv (List.mem_of_mem_filter mem)]

theorem forceMParityLoop_spec (mask : Nat) (result : Bool) (maxQPowerOcl : Nat) (v : StateVector) :
    (∀ i, (forceMParityLoop sched mask result maxQPowerOcl v).1.amp i =
        if i < maxQPowerOcl ∧ (oddParity mask i == result) = false then 0 else v.amp i) ∧
      (forceMParityLoop sched mask result maxQPowerOcl v).2 =
        (((List.range maxQPowerOcl).filter fun lcv => oddParity mask lcv == result).map
          fun lcv => Complex.normSq (v.amp lcv)).sum := by
  obtain ⟨-, amp, total⟩ := foldl_forceMParityStep sched mask result _ (List.nodup_range maxQPowerOcl) v fun _ => 0
  exact ⟨by simpa using amp, by simpa using total⟩

theorem forceMParityLoop_nonneg (mask : Nat) (result : Bool) (maxQPowerOcl : Nat) (v : StateVector) :
    0 ≤ (forceMParityLoop sched mask result maxQPowerOcl v).2 := by
  rw [(forceMParityLoop_spec sched mask result maxQPowerOcl v).2]
  exact List.sum_nonneg fun x mem => by
    obtain ⟨i, -, rfl⟩ := List.mem_map.mp mem
    exact Complex.normSq_nonneg _

end Reductions

end

end Qrack
