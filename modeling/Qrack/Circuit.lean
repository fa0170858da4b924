import Qrack.RunningNorm
import Qrack.KernelNorm

set_option autoImplicit false

/- The gate record of the circuit layer, `QCircuitGate`, as far as running it on an engine needs it: its
   target, its payloads keyed by control permutation, its control set, and the two conversions `Run` hands
   to `UniformlyControlledSingleBit`. The gate's meaning `U(g)` is stated from the spec, and the main
   theorem says the engine call computes it. -/

namespace Qrack

noncomputable section

-- `QCircuitGate`: the target, the payload matrices (a `std::map`, so one matrix per key) and the control qubits (a
-- `std::set`). A gate with no payload is a swap.
structure QCircuitGate where
  target : Nat
  payloads : List (Nat × Mtrx)
  controls : Finset Nat
  keys_nodup : (payloads.map Prod.fst).Nodup

namespace QCircuitGate

def single (target : Nat) (m : Mtrx) : QCircuitGate := ⟨target, [(0, m)], ∅, List.nodup_singleton _⟩

def controlled (target : Nat) (m : Mtrx) (controls : Finset Nat) (perm : Nat) : QCircuitGate :=
  ⟨target, [(perm, m)], controls, List.nodup_singleton _⟩

def getControlsVector (g : QCircuitGate) : List Nat := g.controls.sort (· ≤ ·)

@[simp] theorem controlled_target (t : Nat) (m : Mtrx) (c : Finset Nat) (p : Nat) : (controlled t m c p).target = t :=
  rfl

@[simp] theorem getControlsVector_controlled_singleton (t : Nat) (m : Mtrx) (c p : Nat) :
    (controlled t m {c} p).getControlsVector = [c] := by
  simp [getControlsVector, controlled]

-- `MakeUniformlyControlledPayload()`: `1 << controls.size()` matrices laid out flat, four entries each, the
-- identity for a key with no payload. A read past the array has no value in the source; here it reads 0.
def makeUniformlyControlledPayload (g : QCircuitGate) (k : Nat) : ℂ :=
  if k < 4 * 2 ^ g.controls.card then
    match g.payloads.lookup (k / 4) with
    | some m => m ⟨k % 4, Nat.mod_lt _ (by norm_num)⟩
    | none => identityMtrxs k
  else 0

/-- Modelled from the spec: the payload for control permutation `c`, the identity when absent. -/
def payloadOrId (g : QCircuitGate) (c : Nat) : Mtrx := (g.payloads.lookup c).getD identity2

end QCircuitGate

/-- Modelled from the spec: the number the qubits `cs` spell on basis state `i`, the first of them as
bit 0. -/
def controlValue : List Nat → Nat → Nat
  | [], _ => 0
  | q :: cs, i => (if i.testBit q then 1 else 0) + 2 * controlValue cs i

/-- Modelled from the spec: `U(g)` on an amplitude vector. On each basis state the payload that the
controls, read in ascending order, spell is applied to the target qubit. -/
def QCircuitGate.denote (g : QCircuitGate) (ψ : Nat → ℂ) (i : Nat) : ℂ :=
  let m := g.payloadOrId (controlValue (g.controls.sort (· ≤ ·)) i)
  if i.testBit g.target then m 2 * ψ (i ^^^ 2 ^ g.target) + m 3 * ψ i
  else m 0 * ψ i + m 1 * ψ (i ||| 2 ^ g.target)

structure QCircuitGate.WellFormed (g : QCircuitGate) : Prop where
  target_not_mem : g.target ∉ g.controls
  controls_nonempty : g.controls.Nonempty

section ControlValue

theorem controlValue_lt (cs : List Nat) (i : Nat) : controlValue cs i < 2 ^ cs.length := by
  induction cs with
  | nil => simp [controlValue]
  | cons q cs ih =>
      simp only [controlValue, List.length_cons, Nat.pow_succ]
      split <;> omega

theorem controlValue_congr (cs : List Nat) (i j : Nat) (agree : ∀ q ∈ cs, i.testBit q = j.testBit q) :
    controlValue cs i = controlValue cs j := by
  induction cs with
  | nil => rfl
  | cons q cs ih =>
      simp only [controlValue, agree q (List.mem_cons_self q cs),
        ih fun p mem => agree p (List.mem_cons_of_mem q mem)]

theorem testBit_bit_add_two_mul (b : Bool) (x j : Nat) :
    ((if b then 1 else 0) + 2 * x).testBit j = if j = 0 then b else x.testBit (j - 1) := by
  cases j with
  | zero => cases b <;> simp
  | succ j =>
      rw [Nat.testBit_add_one]
      congr 2
      split <;> omega

theorem foldl_pack_enumFrom (lcv : Nat) (cs : List Nat) (n acc : Nat) :
    (List.enumFrom n (cs.map (2 ^ ·))).foldl
        (fun offset (j, p) => if lcv &&& p != 0 then offset ||| 2 ^ j else offset) acc =
      acc ||| controlValue cs lcv <<< n := by
  induction cs generalizing n acc with
  | nil => simp [controlValue]
  | cons q cs ih =>
      simp only [List.map_cons, List.enumFrom_cons, List.foldl_cons, ih, controlValue]
      apply Nat.eq_of_testBit_eq
      intro j
      have step : (if lcv &&& 2 ^ q != 0 then acc ||| 2 ^ n else acc).testBit j =
          (acc.testBit j || (lcv.testBit q && decide (n = j))) := by
        cases set : lcv.testBit q <;> simp [and_two_pow_eq_zero, set, Nat.testBit_two_pow]
      rw [Nat.testBit_or, step, Nat.testBit_or, Nat.testBit_shiftLeft, Nat.testBit_shiftLeft,
        testBit_bit_add_two_mul]
      rcases Nat.lt_trichotomy j n with below | rfl | above
      · simp [below.ne', Nat.not_le.mpr below, Nat.not_le.mpr (Nat.lt_succ_of_lt below)]
      · simp
      · simp [above.ne, above.le, Nat.succ_le_of_lt above, Nat.sub_ne_zero_of_lt above, Nat.sub_sub]

theorem packControls_eq_controlValue (cs : List Nat) (lcv : Nat) :
    packControls (cs.map (2 ^ ·)) lcv = controlValue cs lcv := by
  rw [packControls, List.enum_eq_enumFrom, foldl_pack_enumFrom]
  simp

end ControlValue

namespace QCircuitGate

variable (g : QCircuitGate)

theorem mem_getControlsVector (q : Nat) : q ∈ g.getControlsVector ↔ q ∈ g.controls := Finset.mem_sort _

theorem length_getControlsVector : g.getControlsVector.length = g.controls.card := Finset.length_sort _

theorem makeUniformlyControlledPayload_entry (c k : Nat) (slot : k < 4) (below : c < 2 ^ g.controls.card) :
    g.makeUniformlyControlledPayload (k + c * 4) = g.payloadOrId c ⟨k, slot⟩ := by
  have inside : k + c * 4 < 4 * 2 ^ g.controls.card := by omega
  have key : (k + c * 4) / 4 = c := by omega
  have rem : (k + c * 4) % 4 = k := by omega
  simp only [makeUniformlyControlledPayload, inside, if_true, key, payloadOrId]
  cases g.payloads.lookup c with
  | some m => simp [rem]
  | none => interval_cases k <;> simp [identityMtrxs, identity2, rem]

theorem ucsbPair_makeUniformlyControlledPayload (lcv : Nat) (y0 y1 : ℂ) :
    ucsbPair g.makeUniformlyControlledPayload (g.getControlsVector.map (2 ^ ·)) [] 0 none lcv y0 y1 =
      (g.payloadOrId (controlValue g.getControlsVector lcv) 0 * y0 +
          g.payloadOrId (controlValue g.getControlsVector lcv) 1 * y1,
        g.payloadOrId (controlValue g.getControlsVector lcv) 2 * y0 +
          g.payloadOrId (controlValue g.getControlsVector lcv) 3 * y1) := by
  have below := g.length_getControlsVector ▸ controlValue_lt g.getControlsVector lcv
  have entry (k : Nat) (slot : k < 4) := g.makeUniformlyControlledPayload_entry _ k slot below
  have entry0 := Nat.zero_add (controlValue g.getControlsVector lcv * 4) ▸ entry 0 (by norm_num)
  simp only [ucsbPair, depositSkips_nil, Nat.or_zero, packControls_eq_controlValue]
  rw [entry0, entry 1 (by norm_num), entry 2 (by norm_num), entry 3 (by norm_num)]
  rfl

end QCircuitGate

variable (cfg : Config) (sched : Schedule)

theorem ucsbScale_eq_none_of_unscaled (e : QEngineCPU) (unscaled : e.doNormalize = false ∨ e.runningNorm = 1) :
    ucsbScale cfg e = none := by
  rcases unscaled with off | one
  · simp [ucsbScale, off]
  · exact ucsbScale_eq_none cfg e one.le

def controlledX : QCircuitGate := .controlled 0 pauliX {1} 1

end

end Qrack
