import Qrack.Circuit

set_option autoImplicit false

/- The two gate-pair tests the circuit optimiser trusts. `CanPass` lets a gate move past another; it is
   sound: on well-formed non-swap gates whose phase test is exact, every pair it accepts commutes as
   operators. `Combine` merges a gate into one with the same target and control set by multiplying the
   payloads key by key, later gate on the left; the merged gate denotes the product. -/

namespace Qrack

noncomputable section

namespace QCircuitGate

variable (cfg : Config)

def isSwap (g : QCircuitGate) : Bool := g.payloads.isEmpty

def isPhase (g : QCircuitGate) : Bool :=
  !g.isSwap && g.payloads.all fun p =>
    !decide (cfg.fpNormEpsilon < Complex.normSq (p.2 1)) && !decide (cfg.fpNormEpsilon < Complex.normSq (p.2 2))

def canPass (g other : QCircuitGate) : Bool :=
  if g.target ∈ other.controls then
    if !g.isPhase cfg then false
    else if other.target ∈ g.controls then other.isPhase cfg
    else true
  else if other.target ∈ g.controls then other.isPhase cfg
  else g.target != other.target || (g.isPhase cfg && other.isPhase cfg)

structure Exact (g : QCircuitGate) : Prop where
  target_not_mem : g.target ∉ g.controls
  not_swap : g.payloads ≠ []
  off_diagonal : ∀ p ∈ g.payloads, (p.2 1 = 0 ∨ cfg.fpNormEpsilon < Complex.normSq (p.2 1)) ∧
    (p.2 2 = 0 ∨ cfg.fpNormEpsilon < Complex.normSq (p.2 2))

def Diagonal (g : QCircuitGate) : Prop := ∀ c, g.payloadOrId c 1 = 0 ∧ g.payloadOrId c 2 = 0

def phaseAt (g : QCircuitGate) (i : Nat) : ℂ :=
  let m := g.payloadOrId (controlValue (g.controls.sort (· ≤ ·)) i)
  if i.testBit g.target then m 3 else m 0

theorem mem_of_lookup_eq_some {g : QCircuitGate} {c : Nat} {m : Mtrx} (found : g.payloads.lookup c = some m) :
    (c, m) ∈ g.payloads := by
  obtain ⟨l₁, l₂, split, -⟩ := List.lookup_eq_some_iff.mp found
  rw [split]
  exact List.mem_append_right _ (List.mem_cons_self _ _)

theorem diagonal_of_isPhase {g : QCircuitGate} (exact : g.Exact cfg) (phase : g.isPhase cfg = true) :
    g.Diagonal := fun c => by
  unfold payloadOrId
  cases found : g.payloads.lookup c with
  | none => exact ⟨rfl, rfl⟩
  | some m =>
      have mem := mem_of_lookup_eq_some found
      have small := (List.all_eq_true.mp (Bool.and_eq_true_iff.mp phase).2) _ mem
      simp only [Bool.and_eq_true, Bool.not_eq_true', decide_eq_false_iff_not, not_lt] at small
      obtain ⟨one, two⟩ := exact.off_diagonal _ mem
      exact ⟨one.resolve_right (not_lt.mpr small.1), two.resolve_right (not_lt.mpr small.2)⟩

theorem denote_of_diagonal {g : QCircuitGate} (diagonal : g.Diagonal) (ψ : Nat → ℂ) :
    g.denote ψ = fun i => g.phaseAt i * ψ i := by
  funext i
  have zero := diagonal (controlValue (g.controls.sort (· ≤ ·)) i)
  unfold denote phaseAt
  split <;> simp [zero.1, zero.2]

section OtherQubit

/- Flipping or setting a bit `b` that a gate neither targets nor reads as a control. -/

variable {g : QCircuitGate} {b : Nat} (i : Nat)

theorem testBit_xor_two_pow_of_ne {j : Nat} (other : j ≠ b) : (i ^^^ 2 ^ b).testBit j = i.testBit j := by
  simp [Nat.testBit_xor, Nat.testBit_two_pow_of_ne (Ne.symm other)]

theorem controlValue_xor_two_pow (cs : List Nat) (away : b ∉ cs) : controlValue cs (i ^^^ 2 ^ b) = controlValue cs i :=
  controlValue_congr cs _ i fun _ mem => testBit_xor_two_pow_of_ne i fun same => away (same ▸ mem)

theorem controlValue_or_two_pow (cs : List Nat) (away : b ∉ cs) : controlValue cs (i ||| 2 ^ b) = controlValue cs i :=
  controlValue_congr cs _ i fun _ mem => testBit_or_two_pow_of_ne fun same => away (same ▸ mem)

theorem phaseAt_xor_two_pow (away : b ∉ g.controls) (apart : b ≠ g.target) : g.phaseAt (i ^^^ 2 ^ b) = g.phaseAt i := by
  simp only [phaseAt, testBit_xor_two_pow_of_ne i apart.symm,
    controlValue_xor_two_pow i _ fun mem => away ((Finset.mem_sort _).mp mem)]

theorem phaseAt_or_two_pow (away : b ∉ g.controls) (apart : b ≠ g.target) : g.phaseAt (i ||| 2 ^ b) = g.phaseAt i := by
  simp only [phaseAt, testBit_or_two_pow_of_ne apart.symm,
    controlValue_or_two_pow i _ fun mem => away ((Finset.mem_sort _).mp mem)]

end OtherQubit

theorem denote_comm_of_diagonal {g h : QCircuitGate} (diagonalG : g.Diagonal) (diagonalH : h.Diagonal)
    (ψ : Nat → ℂ) : g.denote (h.denote ψ) = h.denote (g.denote ψ) := by
  simp only [denote_of_diagonal diagonalG, denote_of_diagonal diagonalH]
  funext i
  ring

theorem denote_comm_of_diagonal_left {g h : QCircuitGate} (diagonal : g.Diagonal) (away : h.target ∉ g.controls)
    (apart : h.target ≠ g.target) (ψ : Nat → ℂ) : g.denote (h.denote ψ) = h.denote (g.denote ψ) := by
  simp only [denote_of_diagonal diagonal]
  funext i
  simp only [denote]
  split
  · rw [phaseAt_xor_two_pow i away apart]; ring
  · rw [phaseAt_or_two_pow i away apart]; ring

theorem two_pow_ops_comm {a b : Nat} (apart : a ≠ b) (i : Nat) :
    i ^^^ 2 ^ b ^^^ 2 ^ a = i ^^^ 2 ^ a ^^^ 2 ^ b ∧ (i ^^^ 2 ^ b) ||| 2 ^ a = (i ||| 2 ^ a) ^^^ 2 ^ b ∧
      (i ||| 2 ^ b) ^^^ 2 ^ a = (i ^^^ 2 ^ a) ||| 2 ^ b ∧ i ||| 2 ^ b ||| 2 ^ a = i ||| 2 ^ a ||| 2 ^ b := by
  refine ⟨?_, ?_, ?_, ?_⟩ <;> apply Nat.eq_of_testBit_eq <;> intro j <;>
    simp only [Nat.testBit_xor, Nat.testBit_or, Nat.testBit_two_pow] <;>
    by_cases atA : a = j <;> by_cases atB : b = j <;> simp_all

theorem denote_comm_of_disjoint {g h : QCircuitGate} (apart : g.target ≠ h.target) (awayG : g.target ∉ h.controls)
    (awayH : h.target ∉ g.controls) (ψ : Nat → ℂ) : g.denote (h.denote ψ) = h.denote (g.denote ψ) := by
  funext i
  obtain ⟨xx, xo, ox, oo⟩ := two_pow_ops_comm apart i
  have readG : h.target ∉ g.controls.sort (· ≤ ·) := fun mem => awayH ((Finset.mem_sort _).mp mem)
  have readH : g.target ∉ h.controls.sort (· ≤ ·) := fun mem => awayG ((Finset.mem_sort _).mp mem)
  simp only [denote, testBit_xor_two_pow_of_ne i apart, testBit_xor_two_pow_of_ne i apart.symm,
    testBit_or_two_pow_of_ne apart, testBit_or_two_pow_of_ne apart.symm, controlValue_xor_two_pow i _ readG,
    controlValue_xor_two_pow i _ readH, controlValue_or_two_pow i _ readG, controlValue_or_two_pow i _ readH,
    xx, xo, ox, oo]
  cases i.testBit g.target <;> cases i.testBit h.target <;> simp only [Bool.false_eq_true, if_true, if_false] <;> ring

/-- `CanPass` is sound: on exact gates, a pair it accepts commutes on every amplitude vector. -/
theorem canPass_commutes (g h : QCircuitGate) (exactG : g.Exact cfg) (exactH : h.Exact cfg)
    (pass : g.canPass cfg h = true) (ψ : Nat → ℂ) : g.denote (h.denote ψ) = h.denote (g.denote ψ) := by
  unfold canPass at pass
  by_cases readsG : g.target ∈ h.controls
  · have apartH : h.target ≠ g.target := fun same => exactH.target_not_mem (same ▸ readsG)
    have phaseG : g.isPhase cfg = true := by
      by_contra other
      simp [readsG, other] at pass
    by_cases readsH : h.target ∈ g.controls
    · simp only [readsG, readsH, phaseG, if_true, Bool.not_true, Bool.false_eq_true, if_false] at pass
      exact denote_comm_of_diagonal (diagonal_of_isPhase cfg exactG phaseG) (diagonal_of_isPhase cfg exactH pass) ψ
    · exact denote_comm_of_diagonal_left (diagonal_of_isPhase cfg exactG phaseG) readsH apartH ψ
  · by_cases readsH : h.target ∈ g.controls
    · simp only [readsG, readsH, if_true, if_false] at pass
      have apartG : g.target ≠ h.target := fun same => exactG.target_not_mem (same ▸ readsH)
      exact (denote_comm_of_diagonal_left (diagonal_of_isPhase cfg exactH pass) readsG apartG ψ).symm
    · by_cases same : g.target = h.target
      · rw [if_neg readsG, if_neg readsH, same, bne_self_eq_false, Bool.false_or, Bool.and_eq_true] at pass
        exact denote_comm_of_diagonal (diagonal_of_isPhase cfg exactG pass.1) (diagonal_of_isPhase cfg exactH pass.2) ψ
      · exact denote_comm_of_disjoint same readsG readsH ψ

theorem pauliX_exact (target : Nat) : (single target pauliX).Exact exampleConfig :=
  ⟨Finset.not_mem_empty _, List.cons_ne_nil _ _, fun p mem => by
    obtain rfl := List.mem_singleton.mp mem
    norm_num [pauliX, exampleConfig]⟩

theorem canPass_commutes_pauliX :
    ((single 0 pauliX).Exact exampleConfig ∧ (single 1 pauliX).Exact exampleConfig ∧
      (single 0 pauliX).canPass exampleConfig (single 1 pauliX) = true) ∧
    (single 0 pauliX).denote ((single 1 pauliX).denote fun i => if i = 0 then 1 else 0) =
      (single 1 pauliX).denote ((single 0 pauliX).denote fun i => if i = 0 then 1 else 0) :=
  have pass : (single 0 pauliX).canPass exampleConfig (single 1 pauliX) = true := by
    simp [canPass, single]
  ⟨⟨pauliX_exact 0, pauliX_exact 1, pass⟩,
    canPass_commutes exampleConfig _ _ (pauliX_exact 0) (pauliX_exact 1) pass _⟩

end QCircuitGate

section Combine

variable (cfg : Config)

/-- Modelled from the spec: `mul2x2(left, right, out)` writes the row-major product `left · right`. -/
def mul2x2 (a b : Mtrx) : Mtrx :=
  ![a 0 * b 0 + a 1 * b 2, a 0 * b 1 + a 1 * b 3, a 2 * b 0 + a 3 * b 2, a 2 * b 1 + a 3 * b 3]

def ampLeq0 (x : ℂ) : Bool := decide (Complex.normSq x ≤ cfg.fpNormEpsilon)

def nearIdentity (m : Mtrx) : Bool :=
  ampLeq0 cfg (m 1) && ampLeq0 cfg (m 2) && ampLeq0 cfg (1 - m 0) && ampLeq0 cfg (1 - m 3)

def combinePayload (ps : List (Nat × Mtrx)) (kv : Nat × Mtrx) : List (Nat × Mtrx) :=
  match ps.lookup kv.1 with
  | none => ps ++ [kv]
  | some p =>
      if nearIdentity cfg (mul2x2 kv.2 p) then ps.filter (·.1 != kv.1)
      else ps.map fun e => if e.1 = kv.1 then (e.1, mul2x2 kv.2 p) else e

def mergedPayload : Option Mtrx → Option Mtrx → Option Mtrx
  | none, p => p
  | some m, none => some m
  | some m, some p => if nearIdentity cfg (mul2x2 m p) then none else some (mul2x2 m p)

section PayloadLists

variable (ps : List (Nat × Mtrx)) (k c : Nat)

theorem lookup_filter_key : (ps.filter (·.1 != k)).lookup c = if c = k then none else ps.lookup c := by
  induction ps with
  | nil => simp
  | cons e ps ih =>
      obtain ⟨k', m⟩ := e
      by_cases same : k' = k
      · subst same
        by_cases at_c : c = k'
        · rw [List.filter_cons, if_neg (by simp), ih, if_pos at_c, if_pos at_c]
        · simp [List.filter_cons, List.lookup_cons, ih, at_c, beq_eq_false_iff_ne.mpr at_c]
      · by_cases at_c : c = k'
        · subst at_c
          simp [List.filter_cons, List.lookup_cons, same]
        · simp [List.filter_cons, List.lookup_cons, ih, same, beq_eq_false_iff_ne.mpr at_c]

theorem lookup_map_replace (out : Mtrx) :
    (ps.map fun e => if e.1 = k then (e.1, out) else e).lookup c =
      if c = k then (ps.lookup c).map fun _ => out else ps.lookup c := by
  induction ps with
  | nil => simp
  | cons e ps ih =>
      obtain ⟨k', m⟩ := e
      by_cases at_c : c = k'
      · subst at_c
        by_cases same : c = k <;> simp [List.lookup_cons, same]
      · by_cases same : k' = k
        · subst same
          simp [List.lookup_cons, ih, at_c, beq_eq_false_iff_ne.mpr at_c]
        · simp [List.lookup_cons, ih, same, beq_eq_false_iff_ne.mpr at_c]

theorem combinePayload_nodup (distinct : (ps.map Prod.fst).Nodup) (kv : Nat × Mtrx) :
    ((combinePayload cfg ps kv).map Prod.fst).Nodup := by
  unfold combinePayload
  cases found : ps.lookup kv.1 with
  | none =>
      have fresh : kv.1 ∉ ps.map Prod.fst := fun mem => by
        obtain ⟨p, mem, same⟩ := List.mem_map.mp mem
        simpa [same] using List.lookup_eq_none_iff.mp found p mem
      simpa [List.nodup_append, fresh] using distinct
  | some p =>
      dsimp only
      split
      · exact ((List.filter_sublist ps).map Prod.fst).nodup distinct
      · rw [List.map_map]
        convert distinct using 2
        funext e
        simp only [Function.comp_apply]
        split <;> rfl

theorem lookup_combinePayload (kv : Nat × Mtrx) :
    (combinePayload cfg ps kv).lookup c = if c = kv.1 then mergedPayload cfg (some kv.2) (ps.lookup kv.1)
      else ps.lookup c := by
  obtain ⟨k, m⟩ := kv
  unfold combinePayload
  cases found : ps.lookup k with
  | none =>
      rw [List.lookup_append]
      by_cases at_c : c = k
      · subst at_c; simp [found, mergedPayload]
      · simp [at_c, List.lookup_cons, beq_eq_false_iff_ne.mpr at_c]
  | some p =>
      dsimp only
      split
      · next near => rw [lookup_filter_key]; simp [mergedPayload, near]
      · next far =>
          rw [lookup_map_replace]
          by_cases at_c : c = k
          · subst at_c; simp [found, mergedPayload, far]
          · simp [at_c]

theorem foldl_combinePayload_nodup (distinct : (ps.map Prod.fst).Nodup) (qs : List (Nat × Mtrx)) :
    ((qs.foldl (combinePayload cfg) ps).map Prod.fst).Nodup := by
  induction qs generalizing ps with
  | nil => exact distinct
  | cons kv qs ih => exact ih _ (combinePayload_nodup cfg ps distinct kv)

theorem lookup_foldl_combinePayload (qs : List (Nat × Mtrx)) (distinct : (qs.map Prod.fst).Nodup) :
    (qs.foldl (combinePayload cfg) ps).lookup c = mergedPayload cfg (qs.lookup c) (ps.lookup c) := by
  induction qs generalizing ps with
  | nil => rfl
  | cons kv qs ih =>
      obtain ⟨fresh, distinct⟩ := List.nodup_cons.mp distinct
      rw [List.foldl_cons, ih _ distinct, lookup_combinePayload]
      by_cases at_c : c = kv.1
      · have absent : qs.lookup c = none := List.lookup_eq_none_iff.mpr fun p mem =>
          bne_iff_ne.mpr fun same => fresh (List.mem_map.mpr ⟨p, mem, same.symm.trans at_c⟩)
        obtain ⟨k, m⟩ := kv
        subst at_c
        simp [absent, mergedPayload]
      · obtain ⟨k, m⟩ := kv
        simp [at_c, List.lookup_cons, beq_eq_false_iff_ne.mpr at_c]

end PayloadLists

theorem mul2x2_identity (m : Mtrx) : mul2x2 m identity2 = m := by
  funext k
  fin_cases k <;> simp [mul2x2, identity2]

theorem identity_mul2x2 (m : Mtrx) : mul2x2 identity2 m = m := by
  funext k
  fin_cases k <;> simp [mul2x2, identity2]

namespace QCircuitGate

def clear (g : QCircuitGate) : QCircuitGate := ⟨g.target, [(0, identity2)], ∅, List.nodup_singleton _⟩

def canCombine (g other : QCircuitGate) : Bool :=
  if g.isSwap then false
  else g.target == other.target && g.controls.card == other.controls.card && decide (other.controls ⊆ g.controls)

-- `Combine(other)`: a swap clears; otherwise the other gate's payloads are merged in key by key, and a gate left
-- with no payload clears. A `std::map` visits its keys in order; the keys are distinct and each round touches its
-- own key only, so the order of the visit does not change the merged map.
def combine (g other : QCircuitGate) : QCircuitGate :=
  if g.isSwap then g.clear
  else if other.payloads.foldl (combinePayload cfg) g.payloads = [] then g.clear
  else ⟨g.target, other.payloads.foldl (combinePayload cfg) g.payloads, g.controls,
    foldl_combinePayload_nodup cfg g.payloads g.keys_nodup other.payloads⟩

def tryCombine (g other : QCircuitGate) : Bool × QCircuitGate :=
  if g.canCombine other then (true, g.combine cfg other) else (false, g)

theorem canCombine_spec {g h : QCircuitGate} (can : g.canCombine h = true) :
    h.target = g.target ∧ h.controls = g.controls := by
  unfold canCombine at can
  split at can
  · exact absurd can Bool.false_ne_true
  · simp only [Bool.and_eq_true, beq_iff_eq, decide_eq_true_eq] at can
    exact ⟨can.1.1.symm, Finset.eq_of_subset_of_card_le can.2 can.1.2.le⟩

theorem denote_clear (g : QCircuitGate) (ψ : Nat → ℂ) : g.clear.denote ψ = ψ := by
  funext i
  simp only [denote, clear, payloadOrId, Finset.sort_empty, controlValue, List.lookup_cons_self, Option.getD_some]
  split <;> simp [identity2]

theorem or_two_pow_xor {i t : Nat} (clear : i.testBit t = false) : (i ||| 2 ^ t) ^^^ 2 ^ t = i := by
  apply Nat.eq_of_testBit_eq
  intro j
  by_cases at_t : j = t
  · subst at_t; simp [clear]
  · rw [testBit_xor_two_pow_of_ne _ at_t, testBit_or_two_pow_of_ne at_t]

theorem denote_denote_same {g h : QCircuitGate} (sameT : h.target = g.target) (sameC : h.controls = g.controls)
    (own : g.target ∉ g.controls) (ψ : Nat → ℂ) (i : Nat) :
    h.denote (g.denote ψ) i =
      let m := mul2x2 (h.payloadOrId (controlValue (g.controls.sort (· ≤ ·)) i))
        (g.payloadOrId (controlValue (g.controls.sort (· ≤ ·)) i))
      if i.testBit g.target then m 2 * ψ (i ^^^ 2 ^ g.target) + m 3 * ψ i
      else m 0 * ψ i + m 1 * ψ (i ||| 2 ^ g.target) := by
  have read : g.target ∉ g.controls.sort (· ≤ ·) := fun mem => own ((Finset.mem_sort _).mp mem)
  simp only [denote, sameT, sameC, mul2x2, Matrix.cons_val_zero, Matrix.cons_val_one, Matrix.head_cons,
    Matrix.cons_val_two, Matrix.tail_cons, Matrix.cons_val_three]
  cases bit : i.testBit g.target with
  | true =>
      simp only [testBit_xor_two_pow_self, bit, xor_two_pow_or bit, controlValue_xor_two_pow i _ read,
        Bool.not_true, Bool.false_eq_true, if_true, if_false]
      ring
  | false =>
      simp only [testBit_or_two_pow_self, bit, or_two_pow_xor bit, controlValue_or_two_pow i _ read,
        Bool.false_eq_true, if_true, if_false]
      ring

theorem getD_mergedPayload {m? p? : Option Mtrx}
    (cancels : ∀ m p, m? = some m → p? = some p → nearIdentity cfg (mul2x2 m p) = true → mul2x2 m p = identity2) :
    (mergedPayload cfg m? p?).getD identity2 = mul2x2 (m?.getD identity2) (p?.getD identity2) := by
  cases m? with
  | none => simp [mergedPayload, identity_mul2x2]
  | some m =>
      cases p? with
      | none => simp [mergedPayload, mul2x2_identity]
      | some p =>
          by_cases near : nearIdentity cfg (mul2x2 m p) = true
          · simp only [mergedPayload, near, if_true, Option.getD_none, Option.getD_some]
            exact (cancels m p rfl rfl near).symm
          · simp [mergedPayload, near]

theorem eq_nil_of_lookup_eq_none {ps : List (Nat × Mtrx)} (absent : ∀ c, ps.lookup c = none) : ps = [] := by
  cases ps with
  | nil => rfl
  | cons e ps =>
      obtain ⟨k, m⟩ := e
      exact absurd (absent k) (by rw [List.lookup_cons_self]; exact Option.some_ne_none m)

theorem isSwap_eq_false {g : QCircuitGate} (payload : g.payloads ≠ []) : g.isSwap = false := by
  simpa [isSwap] using payload

theorem denote_combine {g h : QCircuitGate} (own : g.target ∉ g.controls) (notSwapG : g.payloads ≠ [])
    (can : g.canCombine h = true)
    (cancels : ∀ c m p, h.payloads.lookup c = some m → g.payloads.lookup c = some p →
      nearIdentity cfg (mul2x2 m p) = true → mul2x2 m p = identity2) (ψ : Nat → ℂ) :
    (g.combine cfg h).denote ψ = h.denote (g.denote ψ) := by
  obtain ⟨sameT, sameC⟩ := canCombine_spec can
  have product (c : Nat) : ((h.payloads.foldl (combinePayload cfg) g.payloads).lookup c).getD identity2 =
      mul2x2 (h.payloadOrId c) (g.payloadOrId c) := by
    rw [lookup_foldl_combinePayload cfg g.payloads c h.payloads h.keys_nodup]
    exact getD_mergedPayload cfg (cancels c)
  funext i
  rw [denote_denote_same sameT sameC own]
  unfold combine
  rw [if_neg (by simp [isSwap_eq_false notSwapG])]
  split
  · next empty =>
      have unit (c : Nat) : mul2x2 (h.payloadOrId c) (g.payloadOrId c) = identity2 := by
        simpa [empty] using (product c).symm
      simp only [denote_clear, unit]
      split <;> simp [identity2]
  · simp only [denote, payloadOrId, product]

/-- `Combine` on two gates with one target and one control set, the target outside it, this gate no
swap. The identity test only drops products that are the identity. -/
theorem combine_denotes_product (g h : QCircuitGate) (own : g.target ∉ g.controls) (notSwapG : g.payloads ≠ [])
    (can : g.canCombine h = true)
    (cancels : ∀ c m p, h.payloads.lookup c = some m → g.payloads.lookup c = some p →
      nearIdentity cfg (mul2x2 m p) = true → mul2x2 m p = identity2) :
    (∀ ψ, (g.combine cfg h).denote ψ = h.denote (g.denote ψ)) ∧
    (∀ c m, h.payloads.lookup c = some m → g.payloads.lookup c = none →
      (g.combine cfg h).payloads.lookup c = some m) ∧
    (∀ c p, g.payloads.lookup c = some p → h.payloads.lookup c = none →
      (g.combine cfg h).payloads.lookup c = some p) ∧
    ((∀ c, (∃ m, h.payloads.lookup c = some m) ∨ (∃ p, g.payloads.lookup c = some p) →
        ∃ m p, h.payloads.lookup c = some m ∧ g.payloads.lookup c = some p ∧ nearIdentity cfg (mul2x2 m p) = true) →
      (g.combine cfg h).controls = ∅ ∧ ∀ ψ, (g.combine cfg h).denote ψ = ψ) := by
  have merged (c : Nat) := lookup_foldl_combinePayload cfg g.payloads c h.payloads h.keys_nodup
  refine ⟨denote_combine cfg own notSwapG can cancels, ?_⟩
  unfold combine
  rw [if_neg (by simp [isSwap_eq_false notSwapG])]
  by_cases empty : h.payloads.foldl (combinePayload cfg) g.payloads = []
  · rw [if_pos empty]
    refine ⟨fun c m inH notG => ?_, fun c p inG notH => ?_, fun _ => ⟨rfl, denote_clear g⟩⟩
    · simpa [empty, mergedPayload, inH, notG] using merged c
    · simpa [empty, mergedPayload, notH, inG] using merged c
  · rw [if_neg empty]
    refine ⟨fun c m inH notG => by rw [merged, inH, notG]; rfl, fun c p inG notH => by rw [merged, inG, notH]; rfl,
      fun allCancel => absurd (eq_nil_of_lookup_eq_none fun c => ?_) empty⟩
    rw [merged]
    by_cases present : (∃ m, h.payloads.lookup c = some m) ∨ (∃ p, g.payloads.lookup c = some p)
    · obtain ⟨m, p, inH, inG, near⟩ := allCancel c present
      simp [inH, inG, mergedPayload, near]
    · push_neg at present
      rw [Option.eq_none_iff_forall_not_mem.mpr present.1, Option.eq_none_iff_forall_not_mem.mpr present.2]
      rfl

theorem pauliX_mul_self : mul2x2 pauliX pauliX = identity2 := by
  simp [mul2x2, pauliX, identity2]

theorem combine_denotes_product_pauliX :
    ((single 0 pauliX).target ∉ (single 0 pauliX).controls ∧ (single 0 pauliX).payloads ≠ [] ∧
      (single 0 pauliX).canCombine (single 0 pauliX) = true) ∧
    ∀ ψ, ((single 0 pauliX).combine exampleConfig (single 0 pauliX)).denote ψ =
      (single 0 pauliX).denote ((single 0 pauliX).denote ψ) :=
  have cancels : ∀ c m p, (single 0 pauliX).payloads.lookup c = some m →
      (single 0 pauliX).payloads.lookup c = some p → nearIdentity exampleConfig (mul2x2 m p) = true →
      mul2x2 m p = identity2 := by
    intro c m p inH inG _
    rcases c with _ | c
    · simp only [single, List.lookup_cons_self, Option.some.injEq] at inH inG
      rw [← inH, ← inG, pauliX_mul_self]
    · simp [single, List.lookup_cons] at inH
  have can : (single 0 pauliX).canCombine (single 0 pauliX) = true := by decide
  ⟨⟨by simp [single], by simp [single], can⟩,
    (combine_denotes_product exampleConfig _ _ (by simp [single]) (by simp [single]) can cancels).1⟩

end QCircuitGate

end Combine

end

end Qrack
