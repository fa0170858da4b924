import Qrack.Circuit

set_option autoImplicit false

/- The gate layering of `QTensorNetwork`: the circuit layers (each `QCircuit` as the list of gates appended
   to it), the measurement layers (qubit ↦ result), `GetCircuit`, and the seven gate calls that append to
   the layer it returns. The worker queue of `Dispatch` runs the appends in submission order, so they are
   taken here in that order. `layerStack` is reset by every gate call and read by no function modelled here.
   `SetPermutation` clears the circuit layers and pushes layer 0, and no call removes a layer, so the
   structure carries that layer's existence.

   `Allocate` grows the register and moves the qubits from `start` on up past the new ones, one `Swap` each,
   the highest first. A `Swap` is the three controlled X gates of `QCircuit::Swap`. Run in the order they
   are issued, the swaps insert the fresh qubits at `start`. When no measurement layer records a moved
   qubit, `Allocate` appends them to circuit layer 0 in that order; a measurement layer that records one
   sends some swaps to a later circuit layer and so reorders them. -/

namespace Qrack

noncomputable section

structure QTensorNetwork where
  qubitCount : Nat
  circuit : List (List QCircuitGate)
  measurements : List (List (Nat × Bool))
  hasFirstLayer : circuit ≠ []

namespace QTensorNetwork

def records (m : List (Nat × Bool)) (q : Nat) : Bool := (m.lookup q).isSome

def measuredAt (target : Nat) (controls : List Nat) (t : QTensorNetwork) (l : Nat) : Bool :=
  records (t.measurements.getD l []) target || controls.any (records (t.measurements.getD l []))

def pushLayer (t : QTensorNetwork) : QTensorNetwork :=
  { t with circuit := t.circuit ++ [[]], hasFirstLayer := List.append_ne_nil_of_left_ne_nil t.hasFirstLayer _ }

-- `GetCircuit(target, controls)`: scan the measurement layers from the last; at the first that records the target
-- or a control, return the circuit layer after it, pushing a new one when that layer is one past the end. With no
-- such layer, circuit layer 0.
def getCircuit (target : Nat) (controls : List Nat) (t : QTensorNetwork) : Nat × QTensorNetwork :=
  match (List.range t.measurements.length).reverse.find? (t.measuredAt target controls) with
  | some l => (l + 1, if t.circuit.length = l + 1 then t.pushLayer else t)
  | none => (0, t)

def checkQubitCount (target : Nat) (controls : List Nat) (t : QTensorNetwork) : QTensorNetwork :=
  { t with qubitCount := controls.foldl (fun n c => max n (c + 1)) (max t.qubitCount (target + 1)) }

/-- Modelled from the spec: `QCircuit::AppendGate` on circuit layer `l` adds the gate to that layer. -/
def appendGate (l : Nat) (gate : QCircuitGate) (t : QTensorNetwork) : QTensorNetwork :=
  { t with
    circuit := t.circuit.modify (· ++ [gate]) l
    hasFirstLayer := (List.modify_eq_nil_iff _ _ _).not.mpr t.hasFirstLayer }

-- The body the seven gate calls share: `CheckQubitCount`, then the closure they dispatch, `GetCircuit(target,
-- controls)->AppendGate(gate)`.
def submit (target : Nat) (controls : List Nat) (gate : QCircuitGate) (t : QTensorNetwork) : QTensorNetwork :=
  let r := (t.checkQubitCount target controls).getCircuit target controls
  r.2.appendGate r.1 gate

/-- Modelled from the spec: record the result of measuring qubit `q` in measurement layer `layer`,
creating the empty layers before it. -/
def addMeasurement (layer q : Nat) (result : Bool) (t : QTensorNetwork) : QTensorNetwork :=
  let padded := t.measurements ++ List.replicate (layer + 1 - t.measurements.length) []
  { t with measurements := padded.modify (fun m => (q, result) :: m.filter (·.1 != q)) layer }

def mtrx (m : Mtrx) (target : Nat) (t : QTensorNetwork) : QTensorNetwork :=
  t.submit target [] (.single target m)

def mcMtrx (controls : List Nat) (m : Mtrx) (target : Nat) (t : QTensorNetwork) : QTensorNetwork :=
  t.submit target controls (.controlled target m controls.toFinset (2 ^ controls.length - 1))

def macMtrx (controls : List Nat) (m : Mtrx) (target : Nat) (t : QTensorNetwork) : QTensorNetwork :=
  t.submit target controls (.controlled target m controls.toFinset 0)

def mcPhase (controls : List Nat) (topLeft bottomRight : ℂ) (target : Nat) (t : QTensorNetwork) : QTensorNetwork :=
  t.submit target controls (.controlled target ![topLeft, 0, 0, bottomRight] controls.toFinset (2 ^ controls.length - 1))

def macPhase (controls : List Nat) (topLeft bottomRight : ℂ) (target : Nat) (t : QTensorNetwork) : QTensorNetwork :=
  t.submit target controls (.controlled target ![topLeft, 0, 0, bottomRight] controls.toFinset 0)

def mcInvert (controls : List Nat) (topRight bottomLeft : ℂ) (target : Nat) (t : QTensorNetwork) : QTensorNetwork :=
  t.submit target controls (.controlled target ![0, topRight, bottomLeft, 0] controls.toFinset (2 ^ controls.length - 1))

def macInvert (controls : List Nat) (topRight bottomLeft : ℂ) (target : Nat) (t : QTensorNetwork) : QTensorNetwork :=
  t.submit target controls (.controlled target ![0, topRight, bottomLeft, 0] controls.toFinset 0)

def swapGates (q1 q2 : Nat) : List QCircuitGate :=
  if q1 = q2 then []
  else
    let lo := min q1 q2
    let hi := max q1 q2
    [.controlled lo pauliX {hi} 1, .controlled hi pauliX {lo} 1, .controlled lo pauliX {hi} 1]

/-- Modelled from the spec: `Swap(q1, q2)` submits the gates of `QCircuit::Swap(q1, q2)` in turn, each
as a gate call on its target and control. -/
def swap (q1 q2 : Nat) (t : QTensorNetwork) : QTensorNetwork :=
  (swapGates q1 q2).foldl (fun t g => t.submit g.target g.getControlsVector g) t

def allocateSwaps (start movedQubits length : Nat) : List (Nat × Nat) :=
  (List.range movedQubits).map fun i =>
    let q := start + movedQubits - (i + 1)
    (q, q + length)

def allocate (start length : Nat) (t : QTensorNetwork) : Except Fault (Nat × QTensorNetwork) :=
  if t.qubitCount < start then
    .error (.invalidArgument "QTensorNetwork::Allocate() 'start' argument is out-of-bounds!")
  else
    let movedQubits := t.qubitCount - start
    let t := { t with qubitCount := t.qubitCount + length }
    if movedQubits = 0 then .ok (start, t)
    else .ok (start, (allocateSwaps start movedQubits length).foldl (fun t s => t.swap s.1 s.2) t)

section Placement

variable (target : Nat) (controls : List Nat) (t : QTensorNetwork)

theorem range_reverse_after {n a : Nat} {as bs : List Nat} (split : (List.range n).reverse = as ++ a :: bs) :
    ∀ b ∈ bs, b < a := by
  have sorted : ((List.range n).reverse).Pairwise (· > ·) :=
    List.pairwise_reverse.mpr (List.pairwise_lt_range n)
  rw [split, List.pairwise_append, List.pairwise_cons] at sorted
  exact fun b mem => sorted.2.1.1 b mem

theorem getCircuit_after_measurements (l : Nat) (inside : l < t.measurements.length)
    (recorded : t.measuredAt target controls l = true) : l < (t.getCircuit target controls).1 := by
  unfold getCircuit
  split
  · next a found =>
      obtain ⟨hit, as, bs, split, before⟩ := List.find?_eq_some.mp found
      have mem : l ∈ (List.range t.measurements.length).reverse := by simpa using inside
      rw [split, List.mem_append, List.mem_cons] at mem
      rcases mem with early | rfl | later
      · simpa [recorded] using before l early
      · exact Nat.lt_succ_self l
      · exact Nat.lt_succ_of_lt (range_reverse_after split l later)
  · next missing =>
      have := List.find?_eq_none.mp missing l (by simpa using inside)
      simp [recorded] at this

end Placement

section FirstLayer

def Unmeasured (t : QTensorNetwork) (q : Nat) : Prop := ∀ m ∈ t.measurements, records m q = false

@[simp] theorem appendGate_qubitCount (l : Nat) (gate : QCircuitGate) (t : QTensorNetwork) :
    (t.appendGate l gate).qubitCount = t.qubitCount := rfl

@[simp] theorem appendGate_measurements (l : Nat) (gate : QCircuitGate) (t : QTensorNetwork) :
    (t.appendGate l gate).measurements = t.measurements := rfl

theorem getCircuit_unmeasured (target : Nat) (controls : List Nat) (t : QTensorNetwork)
    (targetFree : t.Unmeasured target) (controlsFree : ∀ c ∈ controls, t.Unmeasured c) :
    t.getCircuit target controls = (0, t) := by
  have quiet : ∀ l ∈ (List.range t.measurements.length).reverse, ¬ t.measuredAt target controls l = true := by
    intro l mem
    have layer : t.measurements.getD l [] ∈ t.measurements := by
      rw [List.getD_eq_getElem _ _ (by simpa using mem)]
      exact List.getElem_mem _
    simp only [measuredAt, Bool.or_eq_true, List.any_eq_true, targetFree _ layer, Bool.false_eq_true, false_or,
      not_exists, not_and]
    exact fun c mem' => by rw [controlsFree c mem' _ layer]; exact Bool.false_ne_true
  rw [getCircuit, List.find?_eq_none.mpr quiet]

theorem foldl_max_succ_of_lt (controls : List Nat) (n : Nat) (below : ∀ c ∈ controls, c < n) :
    controls.foldl (fun n c => max n (c + 1)) n = n := by
  induction controls with
  | nil => rfl
  | cons c cs ih =>
      rw [List.foldl_cons, max_eq_left (below c (List.mem_cons_self c cs)),
        ih fun c' mem => below c' (List.mem_cons_of_mem c mem)]

theorem submit_unmeasured (target : Nat) (controls : List Nat) (gate : QCircuitGate) (t : QTensorNetwork)
    (targetBelow : target < t.qubitCount) (controlsBelow : ∀ c ∈ controls, c < t.qubitCount)
    (targetFree : t.Unmeasured target) (controlsFree : ∀ c ∈ controls, t.Unmeasured c) :
    t.submit target controls gate = t.appendGate 0 gate := by
  have counted : t.checkQubitCount target controls = t := by
    rw [checkQubitCount, max_eq_left targetBelow, foldl_max_succ_of_lt controls _ controlsBelow]
  rw [submit, counted, getCircuit_unmeasured target controls t targetFree controlsFree]

@[simp] theorem appendGate_circuit_length (l : Nat) (gate : QCircuitGate) (t : QTensorNetwork) :
    (t.appendGate l gate).circuit.length = t.circuit.length := List.length_modify _ _ _

theorem submit_single_measurement (target : Nat) (controls : List Nat) (gate : QCircuitGate) (t : QTensorNetwork)
    (single : t.measurements.length = 1) (targetBelow : target < t.qubitCount)
    (controlsBelow : ∀ c ∈ controls, c < t.qubitCount) :
    t.submit target controls gate = if t.measuredAt target controls 0 then
      (if t.circuit.length = 1 then t.pushLayer else t).appendGate 1 gate else t.appendGate 0 gate := by
  have counted : t.checkQubitCount target controls = t := by
    rw [checkQubitCount, max_eq_left targetBelow, foldl_max_succ_of_lt controls _ controlsBelow]
  have layers : (List.range t.measurements.length).reverse = [0] := by rw [single]; rfl
  rw [submit, counted, getCircuit, layers]
  cases hit : t.measuredAt target controls 0 <;> simp [hit]

@[simp] theorem pushLayer_qubitCount (t : QTensorNetwork) : t.pushLayer.qubitCount = t.qubitCount := rfl

@[simp] theorem pushLayer_measurements (t : QTensorNetwork) : t.pushLayer.measurements = t.measurements := rfl

@[simp] theorem pushLayer_circuit (t : QTensorNetwork) : t.pushLayer.circuit = t.circuit ++ [[]] := rfl

theorem foldl_appendGate (gates : List QCircuitGate) (l : Nat) (t : QTensorNetwork) :
    (gates.foldl (fun t g => t.appendGate l g) t).circuit = t.circuit.modify (· ++ gates) l ∧
      (gates.foldl (fun t g => t.appendGate l g) t).qubitCount = t.qubitCount ∧
      (gates.foldl (fun t g => t.appendGate l g) t).measurements = t.measurements := by
  induction gates generalizing t with
  | nil =>
      have unchanged : (fun x : List QCircuitGate => x ++ []) = id := funext List.append_nil
      exact ⟨by rw [unchanged, List.modify_id]; rfl, rfl, rfl⟩
  | cons g gs ih =>
      obtain ⟨layers, count, meas⟩ := ih (t.appendGate l g)
      refine ⟨?_, count, meas⟩
      rw [List.foldl_cons, layers, appendGate, List.modify_modify_eq]
      exact congrArg (List.modify · l t.circuit) (funext fun x => List.append_assoc x [g] gs)

theorem foldl_submit_unmeasured (gates : List QCircuitGate) (t : QTensorNetwork)
    (fits : ∀ g ∈ gates, (g.target < t.qubitCount ∧ t.Unmeasured g.target) ∧
      ∀ c ∈ g.getControlsVector, c < t.qubitCount ∧ t.Unmeasured c) :
    gates.foldl (fun t g => t.submit g.target g.getControlsVector g) t = gates.foldl (fun t g => t.appendGate 0 g) t := by
  induction gates generalizing t with
  | nil => rfl
  | cons g gs ih =>
      obtain ⟨⟨targetBelow, targetFree⟩, controls⟩ := fits g (List.mem_cons_self g gs)
      rw [List.foldl_cons, List.foldl_cons, submit_unmeasured _ _ _ _ targetBelow (fun c mem => (controls c mem).1)
        targetFree fun c mem => (controls c mem).2]
      exact ih _ fun g' mem => fits g' (List.mem_cons_of_mem g mem)

theorem swapGates_touch (a b : Nat) :
    ∀ g ∈ swapGates a b, (g.target = a ∨ g.target = b) ∧ ∀ c ∈ g.getControlsVector, c = a ∨ c = b := by
  have minMax : (min a b = a ∨ min a b = b) ∧ (max a b = a ∨ max a b = b) := ⟨min_choice a b, max_choice a b⟩
  unfold swapGates
  split
  · simp
  · simp only [List.mem_cons, List.mem_singleton, List.not_mem_nil, or_false]
    rintro g (rfl | rfl | rfl) <;>
      simp only [QCircuitGate.controlled_target, QCircuitGate.getControlsVector_controlled_singleton,
        List.mem_singleton, forall_eq, minMax, and_self]

theorem foldl_swap_unmeasured (swaps : List (Nat × Nat)) (t : QTensorNetwork)
    (fits : ∀ s ∈ swaps, s.1 < t.qubitCount ∧ s.2 < t.qubitCount ∧ t.Unmeasured s.1 ∧ t.Unmeasured s.2) :
    (swaps.foldl (fun t s => t.swap s.1 s.2) t).circuit =
        t.circuit.modify (· ++ swaps.flatMap fun s => swapGates s.1 s.2) 0 ∧
      (swaps.foldl (fun t s => t.swap s.1 s.2) t).qubitCount = t.qubitCount ∧
      (swaps.foldl (fun t s => t.swap s.1 s.2) t).measurements = t.measurements := by
  induction swaps generalizing t with
  | nil => exact foldl_appendGate [] 0 t
  | cons s rest ih =>
      obtain ⟨below1, below2, free1, free2⟩ := fits s (List.mem_cons_self s rest)
      have pick : ∀ q, q = s.1 ∨ q = s.2 → q < t.qubitCount ∧ t.Unmeasured q := by
        rintro q (rfl | rfl)
        exacts [⟨below1, free1⟩, ⟨below2, free2⟩]
      have submitted : t.swap s.1 s.2 = (swapGates s.1 s.2).foldl (fun t g => t.appendGate 0 g) t :=
        foldl_submit_unmeasured _ t fun g mem =>
          ⟨pick _ (swapGates_touch _ _ g mem).1, fun c inC => pick c ((swapGates_touch _ _ g mem).2 c inC)⟩
      obtain ⟨layers, count, meas⟩ := foldl_appendGate (swapGates s.1 s.2) 0 t
      rw [← submitted] at layers count meas
      obtain ⟨layers', count', meas'⟩ := ih (t.swap s.1 s.2) fun s' mem => by
        simp only [Unmeasured, count, meas]
        exact fits s' (List.mem_cons_of_mem s mem)
      rw [List.foldl_cons, layers', layers, List.modify_modify_eq, List.flatMap_cons]
      exact ⟨congrArg (List.modify · 0 t.circuit) (funext fun x => List.append_assoc x _ _), count'.trans count,
        meas'.trans meas⟩

end FirstLayer

end QTensorNetwork

/-- Modelled from the spec: a gate sequence applied in order, each gate's `U(g)` to the vector the
gates before it left. -/
def QCircuitGate.denoteList (gates : List QCircuitGate) (ψ : Nat → ℂ) : Nat → ℂ :=
  gates.foldl (fun ψ g => g.denote ψ) ψ

def descendingSwaps (start m length : Nat) : List (Nat × Nat) :=
  (List.range m).reverse.map fun i => (start + i, start + i + length)

def finalPosition (swaps : List (Nat × Nat)) (p : Nat) : Nat :=
  swaps.foldl (fun p s => Equiv.swap s.1 s.2 p) p

structure InsertsAt (move : Nat → Nat) (start n length : Nat) : Prop where
  fixes_outside : ∀ p, p < start ∨ n + length ≤ p → move p = p
  shifts_old : ∀ p, start ≤ p → p < n → move p = p + length
  keeps_order : ∀ p p', p < p' → p' < n → move p < move p'
  fresh_into : ∀ p, n ≤ p → p < n + length → start ≤ move p ∧ move p < start + length
  fresh_onto : ∀ p, start ≤ p → p < start + length → ∃ f, n ≤ f ∧ f < n + length ∧ move f = p

def swapBits (a b i : Nat) : Nat := if i.testBit a = i.testBit b then i else i ^^^ (2 ^ a ||| 2 ^ b)

def cnotIndex (c t i : Nat) : Nat := if i.testBit c then i ^^^ 2 ^ t else i

section Positions

variable (start length : Nat)

@[simp] theorem finalPosition_cons (s : Nat × Nat) (swaps : List (Nat × Nat)) (p : Nat) :
    finalPosition (s :: swaps) p = finalPosition swaps (Equiv.swap s.1 s.2 p) := rfl

theorem descendingSwaps_succ (m : Nat) :
    descendingSwaps start (m + 1) length = (start + m, start + m + length) :: descendingSwaps start m length := by
  simp [descendingSwaps, List.range_succ]

theorem allocateSwaps_eq_descendingSwaps (m : Nat) :
    QTensorNetwork.allocateSwaps start m length = descendingSwaps start m length := by
  rw [QTensorNetwork.allocateSwaps, descendingSwaps, List.range_eq_range', List.reverse_range', List.map_map,
    ← List.range_eq_range']
  refine List.map_congr_left fun i mem => ?_
  have := List.mem_range.mp mem
  simp only [Function.comp, Prod.mk.injEq]
  omega

example : QTensorNetwork.allocateSwaps 1 2 3 = [(2, 5), (1, 4)] := by decide

theorem finalPosition_descending_outside (m p : Nat) (outside : p < start ∨ start + m + length ≤ p) :
    finalPosition (descendingSwaps start m length) p = p := by
  induction m with
  | zero => rfl
  | succ m ih =>
      rw [descendingSwaps_succ, finalPosition_cons, Equiv.swap_apply_of_ne_of_ne (by omega) (by omega), ih (by omega)]

theorem finalPosition_descending_moved (m p : Nat) (low : start ≤ p) (high : p < start + m) :
    finalPosition (descendingSwaps start m length) p = p + length := by
  induction m with
  | zero => omega
  | succ m ih =>
      rw [descendingSwaps_succ, finalPosition_cons]
      by_cases top : p = start + m
      · rw [top, Equiv.swap_apply_left, finalPosition_descending_outside start length m _ (.inr le_rfl)]
      · rw [Equiv.swap_apply_of_ne_of_ne top (by omega), ih (by omega)]

theorem finalPosition_descending_fresh (m p : Nat) (low : start + m ≤ p) (high : p < start + m + length) :
    start ≤ finalPosition (descendingSwaps start m length) p ∧
      finalPosition (descendingSwaps start m length) p < start + length := by
  induction m generalizing p with
  | zero => exact ⟨low, high⟩
  | succ m ih =>
      rw [descendingSwaps_succ, finalPosition_cons]
      by_cases top : p = start + m + length
      · rw [top, Equiv.swap_apply_right]
        exact ih _ le_rfl (by omega)
      · rw [Equiv.swap_apply_of_ne_of_ne (by omega) top]
        exact ih p (by omega) (by omega)

theorem finalPosition_descending_onto (m p : Nat) (low : start ≤ p) (high : p < start + length) :
    ∃ f, start + m ≤ f ∧ f < start + m + length ∧ finalPosition (descendingSwaps start m length) f = p := by
  induction m with
  | zero => exact ⟨p, by omega, by omega, rfl⟩
  | succ m ih =>
      obtain ⟨f, fLow, fHigh, lands⟩ := ih
      rw [descendingSwaps_succ]
      by_cases bottom : f = start + m
      · refine ⟨start + m + length, by omega, by omega, ?_⟩
        rw [finalPosition_cons, Equiv.swap_apply_right, ← bottom, lands]
      · refine ⟨f, by omega, by omega, ?_⟩
        rw [finalPosition_cons, Equiv.swap_apply_of_ne_of_ne bottom (by omega), lands]

theorem finalPosition_descending_insertsAt (m : Nat) :
    InsertsAt (finalPosition (descendingSwaps start m length)) start (start + m) length := by
  have moved := finalPosition_descending_moved start length m
  refine ⟨fun p outside => finalPosition_descending_outside start length m p (by omega), moved,
    fun p p' lt high => ?_, finalPosition_descending_fresh start length m, finalPosition_descending_onto start length m⟩
  by_cases low : start ≤ p
  · rw [moved p low (by omega), moved p' (by omega) high]; omega
  · rw [finalPosition_descending_outside start length m p (.inl (by omega))]
    by_cases low' : start ≤ p'
    · rw [moved p' low' high]; omega
    · rw [finalPosition_descending_outside start length m p' (.inl (by omega))]; exact lt

end Positions

section SwapGates

theorem or_two_pow_eq_xor {x t : Nat} (clear : x.testBit t = false) : x ||| 2 ^ t = x ^^^ 2 ^ t := by
  apply Nat.eq_of_testBit_eq
  intro i
  by_cases at_t : i = t
  · subst at_t; simp [clear]
  · rw [testBit_or_two_pow_of_ne at_t, Nat.testBit_xor, Nat.testBit_two_pow_of_ne (Ne.symm at_t), Bool.xor_false]

theorem testBit_cnotIndex (c t i p : Nat) :
    (cnotIndex c t i).testBit p = (i.testBit p ^^ (decide (p = t) && i.testBit c)) := by
  unfold cnotIndex
  cases i.testBit c <;> simp [Nat.testBit_xor, Nat.testBit_two_pow, eq_comm]

theorem testBit_xor_two_pow_or (a b i p : Nat) :
    (i ^^^ (2 ^ a ||| 2 ^ b)).testBit p = (i.testBit p ^^ (decide (p = a) || decide (p = b))) := by
  simp only [Nat.testBit_xor, Nat.testBit_or, Nat.testBit_two_pow, eq_comm]

theorem testBit_swapBits (a b i p : Nat) : (swapBits a b i).testBit p = i.testBit (Equiv.swap a b p) := by
  rw [swapBits, Equiv.swap_apply_def]
  split_ifs with same atA atB atA atB
  · rw [atA, same]
  · rw [atB, same]
  · rfl
  · rw [testBit_xor_two_pow_or, atA]
    simpa using Bool.eq_not.mpr same
  · rw [testBit_xor_two_pow_or, atB]
    simpa using Bool.eq_not.mpr (Ne.symm same)
  · rw [testBit_xor_two_pow_or]
    simp [atA, atB]

example : swapBits 0 2 0b011 = 0b110 := by decide

theorem denote_controlled_pauliX (t c : Nat) (ψ : Nat → ℂ) (i : Nat) :
    (QCircuitGate.controlled t pauliX {c} 1).denote ψ i = ψ (cnotIndex c t i) := by
  simp only [QCircuitGate.denote, QCircuitGate.controlled, QCircuitGate.payloadOrId, Finset.sort_singleton,
    controlValue, cnotIndex]
  cases control : i.testBit c
  · cases i.testBit t <;> simp [List.lookup, pauliX, identity2]
  · cases target : i.testBit t
    · simp [pauliX, or_two_pow_eq_xor target]
    · simp [pauliX]

theorem cnotIndex_three_eq_swapBits {a b : Nat} (apart : a ≠ b) (i : Nat) :
    cnotIndex b a (cnotIndex a b (cnotIndex b a i)) = swapBits a b i := by
  apply Nat.eq_of_testBit_eq
  intro p
  simp only [testBit_cnotIndex, testBit_swapBits, Equiv.swap_apply_def]
  split_ifs with atA atB
  · subst atA
    cases i.testBit p <;> cases i.testBit b <;> simp [apart, Ne.symm apart]
  · subst atB
    cases i.testBit a <;> cases i.testBit p <;> simp [atA, apart]
  · simp [atA, atB]

theorem swapBits_comm (a b i : Nat) : swapBits a b i = swapBits b a i :=
  Nat.eq_of_testBit_eq fun p => by rw [testBit_swapBits, testBit_swapBits, Equiv.swap_comm]

theorem denoteList_swapGates (q1 q2 : Nat) (ψ : Nat → ℂ) (i : Nat) :
    QCircuitGate.denoteList (QTensorNetwork.swapGates q1 q2) ψ i = ψ (swapBits q1 q2 i) := by
  unfold QTensorNetwork.swapGates
  split
  · rename_i same
    subst same
    simp [QCircuitGate.denoteList, swapBits]
  · rename_i apart
    simp only [QCircuitGate.denoteList, List.foldl, denote_controlled_pauliX]
    rw [cnotIndex_three_eq_swapBits (by omega)]
    rcases le_total q1 q2 with le | le
    · rw [min_eq_left le, max_eq_right le]
    · rw [min_eq_right le, max_eq_left le, swapBits_comm]

theorem swapBits_swapBits (a b i : Nat) : swapBits a b (swapBits a b i) = i :=
  Nat.eq_of_testBit_eq fun p => by rw [testBit_swapBits, testBit_swapBits, Equiv.swap_apply_self]

theorem denoteList_append (gs hs : List QCircuitGate) (ψ : Nat → ℂ) :
    QCircuitGate.denoteList (gs ++ hs) ψ = QCircuitGate.denoteList hs (QCircuitGate.denoteList gs ψ) :=
  List.foldl_append _ _ _ _

theorem denoteList_swaps (swaps : List (Nat × Nat)) (ψ : Nat → ℂ) (i j : Nat)
    (bits : ∀ p, j.testBit p = i.testBit (finalPosition swaps p)) :
    QCircuitGate.denoteList (swaps.flatMap fun s => QTensorNetwork.swapGates s.1 s.2) ψ i = ψ j := by
  induction swaps generalizing ψ j with
  | nil => rw [Nat.eq_of_testBit_eq bits]; rfl
  | cons s rest ih =>
      have bits' : ∀ p, (swapBits s.1 s.2 j).testBit p = i.testBit (finalPosition rest p) := fun p => by
        rw [testBit_swapBits, bits, finalPosition_cons, Equiv.swap_apply_self]
      rw [List.flatMap_cons, denoteList_append, ih _ _ bits', denoteList_swapGates, swapBits_swapBits]

end SwapGates

section Allocate

theorem allocate_eq (t : QTensorNetwork) (start length : Nat) (inside : start ≤ t.qubitCount) :
    t.allocate start length = .ok (start, (descendingSwaps start (t.qubitCount - start) length).foldl
      (fun t s => t.swap s.1 s.2) { t with qubitCount := t.qubitCount + length }) := by
  rw [QTensorNetwork.allocate, if_neg (by omega)]
  dsimp only
  split
  · rename_i noneMoved
    rw [noneMoved]
    rfl
  · rw [allocateSwaps_eq_descendingSwaps]

theorem mem_descendingSwaps {start m length : Nat} {s : Nat × Nat} (mem : s ∈ descendingSwaps start m length) :
    ∃ i < m, s = (start + i, start + i + length) := by
  simp only [descendingSwaps, List.mem_map, List.mem_reverse, List.mem_range] at mem
  obtain ⟨i, below, rfl⟩ := mem
  exact ⟨i, below, rfl⟩

theorem swap_eq_submits {a b : Nat} (lt : a < b) (t : QTensorNetwork) :
    t.swap a b = ((t.submit a [b] (.controlled a pauliX {b} 1)).submit b [a] (.controlled b pauliX {a} 1)).submit a [b]
      (.controlled a pauliX {b} 1) := by
  simp [QTensorNetwork.swap, QTensorNetwork.swapGates, lt.ne, min_eq_left lt.le, max_eq_right lt.le]

/-- A measurement layer that records qubit 2 splits the swaps of `Allocate(0, 1)` on three qubits over two
circuit layers: the last swap issued, `(0, 1)`, goes to layer 0, ahead of `(2, 3)` and `(1, 2)` in layer 1.
Run layer by layer, the swaps leave the fresh qubit at position 1, not 0. -/
theorem allocate_after_measurement_misplaces_fresh_qubit (result : Bool) :
    ∃ t', ((⟨3, [[]], [], List.cons_ne_nil _ _⟩ : QTensorNetwork).addMeasurement 0 2 result).allocate 0 1 = .ok (0, t') ∧
      t'.circuit = [QTensorNetwork.swapGates 0 1, QTensorNetwork.swapGates 2 3 ++ QTensorNetwork.swapGates 1 2] ∧
      finalPosition [(0, 1), (2, 3), (1, 2)] 3 = 1 ∧ ¬ InsertsAt (finalPosition [(0, 1), (2, 3), (1, 2)]) 0 3 1 := by
  have landed : finalPosition [(0, 1), (2, 3), (1, 2)] 3 = 1 := by decide
  have first : (⟨4, [[]], [[(2, result)]], List.cons_ne_nil _ _⟩ : QTensorNetwork).swap 2 3 =
      ⟨4, [[], QTensorNetwork.swapGates 2 3], [[(2, result)]], List.cons_ne_nil _ _⟩ := by
    rw [swap_eq_submits (by norm_num)]
    simp [QTensorNetwork.submit_single_measurement, QTensorNetwork.measuredAt, QTensorNetwork.records, List.lookup]
    rfl
  have second : (⟨4, [[], QTensorNetwork.swapGates 2 3], [[(2, result)]], List.cons_ne_nil _ _⟩ : QTensorNetwork).swap 1 2 =
      ⟨4, [[], QTensorNetwork.swapGates 2 3 ++ QTensorNetwork.swapGates 1 2], [[(2, result)]], List.cons_ne_nil _ _⟩ := by
    rw [swap_eq_submits (by norm_num)]
    simp [QTensorNetwork.submit_single_measurement, QTensorNetwork.measuredAt, QTensorNetwork.records, List.lookup]
    rfl
  have third : (⟨4, [[], QTensorNetwork.swapGates 2 3 ++ QTensorNetwork.swapGates 1 2], [[(2, result)]],
      List.cons_ne_nil _ _⟩ : QTensorNetwork).swap 0 1 = ⟨4, [QTensorNetwork.swapGates 0 1,
        QTensorNetwork.swapGates 2 3 ++ QTensorNetwork.swapGates 1 2], [[(2, result)]], List.cons_ne_nil _ _⟩ := by
    rw [swap_eq_submits (by norm_num)]
    simp [QTensorNetwork.submit_single_measurement, QTensorNetwork.measuredAt, QTensorNetwork.records, List.lookup]
    rfl
  refine ⟨_, allocate_eq _ 0 1 (Nat.zero_le _), ?_, landed, fun inserts => ?_⟩
  · show ([(2, 3), (1, 2), (0, 1)].foldl (fun t s => t.swap s.1 s.2)
      (⟨4, [[]], [[(2, result)]], List.cons_ne_nil _ _⟩ : QTensorNetwork)).circuit = _
    rw [List.foldl_cons, List.foldl_cons, List.foldl_cons, List.foldl_nil, first, second, third]
  have fresh := (inserts.fresh_into 3 le_rfl (by norm_num)).2
  rw [landed] at fresh
  exact absurd fresh (by norm_num)

end Allocate

end

end Qrack
